import CraftClient.Raft.Replica
import CraftClient.Replica.Journal

/-! `resolve_and_apply` of the leader that brings a login about, and `apply_sync` where its watermark is committed. -/

namespace CraftClient.Raft

open Replica

variable {n : ℕ}

/-- `JournalSlot`: a slot as one member sends it to another, without the session it was written in. -/
structure JournalSlot where
  lsn : ℤ
  isEmpty : Bool
  allZeros : Bool
  lba : UInt64
  len : UInt32
  data : Option (List UInt8)
  deriving DecidableEq

def toJournalSlot (lsn : ℤ) (s : MemJournalSlot) : JournalSlot :=
  ⟨lsn, s.isEmpty, s.allZeros, s.lba, s.len, if s.allZeros || s.isEmpty then none else s.bytes⟩

def doFetch (r : MemReplica) (lsns : List ℤ) : List JournalSlot :=
  lsns.filterMap fun lsn => (r.journal.find lsn).map (toJournalSlot lsn)

def toMemJournalSlot (j : JournalSlot) (term : UInt64) : MemJournalSlot :=
  ⟨term, j.lba, j.len, j.allZeros, j.isEmpty, j.data⟩

/-- Slots that say the same, whatever the session that each was written in: both are Empty, or both are one write. -/
structure SameSlot (s s' : MemJournalSlot) : Prop where
  verdict : s'.isEmpty = s.isEmpty
  lba : s.isEmpty = false → s'.lba = s.lba
  len : s.isEmpty = false → s'.len = s.len
  zeros : s.isEmpty = false → s'.allZeros = s.allZeros
  bytes : s.isEmpty = false → s.allZeros = false → s'.bytes.getD [] = s.bytes.getD []

lemma sameSlot_toMemJournalSlot (d : ℤ) (s : MemJournalSlot) (term : UInt64) :
    SameSlot s (toMemJournalSlot (toJournalSlot d s) term) := by
  refine ⟨rfl, fun _ => rfl, fun _ => rfl, fun _ => rfl, fun he hz => ?_⟩
  rw [toMemJournalSlot, toJournalSlot, hz, he]
  rfl

def missingLoop (watermark : ℤ) : ℤ → List (ℤ × MemJournalSlot) → List ℤ
  | expect, [] => MemReplica.dlsns (expect - 1) watermark
  | expect, (d, _) :: rest =>
    if d ≤ watermark then MemReplica.dlsns (expect - 1) (d - 1) ++ missingLoop watermark (d + 1) rest
    else MemReplica.dlsns (expect - 1) watermark

def getMissingSlots (r : MemReplica) (watermark : ℤ) : List ℤ :=
  let expect := r.commitLsn + 1
  missingLoop watermark expect (r.journal.entries.dropWhile fun e => e.1 < expect)

section ResolveAndApply

def lacks (lsn : ℤ) (resp : List JournalSlot) : Bool :=
  (resp.find? fun s => s.lsn = lsn).all JournalSlot.isEmpty

def evidenceLoop (lsn : ℤ) : List (List JournalSlot) → ℕ → ℕ × Option JournalSlot
  | [], lacksCount => (lacksCount, none)
  | resp :: rest, lacksCount =>
    match resp.find? fun s => s.lsn = lsn with
    | none => evidenceLoop lsn rest (lacksCount + 1)
    | some s => if s.isEmpty then evidenceLoop lsn rest (lacksCount + 1) else (lacksCount, some s)

structure Decided where
  emptySlots : List ℤ
  stalledLsn : ℤ
  deriving DecidableEq

def decideSlot (peers : ℕ) (responses : List (List JournalSlot)) (term : UInt64) (r : MemReplica) (dec : Decided)
    (lsn : ℤ) : MemReplica × Decided :=
  let (lacksCount, found) := evidenceLoop lsn responses 1
  let r' := match found with
    | some s => r.coldInstallSlot lsn (toMemJournalSlot s term)
    | none => r
  if peers / 2 + 1 ≤ lacksCount then (r', { dec with emptySlots := dec.emptySlots ++ [lsn] })
  else if found.isNone then
    (r', { dec with stalledLsn := if dec.stalledLsn = -1 then lsn else min lsn dec.stalledLsn })
  else (r', dec)

lemma evidenceLoop_le (lsn : ℤ) (responses : List (List JournalSlot)) (k : ℕ) :
    (evidenceLoop lsn responses k).1 ≤ k + (responses.filter (lacks lsn)).length := by
  induction responses generalizing k with
  | nil => exact le_rfl
  | cons resp rest ih =>
    rw [evidenceLoop]
    cases hf : resp.find? fun s => s.lsn = lsn with
    | none =>
      have hl : lacks lsn resp = true := by simp [lacks, hf]
      have hk := ih (k + 1)
      rw [List.filter_cons_of_pos hl, List.length_cons]
      simp only
      omega
    | some s =>
      simp only
      split_ifs with he
      · have hl : lacks lsn resp = true := by simp [lacks, hf, he]
        have hk := ih (k + 1)
        rw [List.filter_cons_of_pos hl, List.length_cons]
        omega
      · exact Nat.le_add_right _ _

lemma mem_decideSlot {peers : ℕ} {responses : List (List JournalSlot)} {term : UInt64} {r : MemReplica}
    {dec : Decided} {lsn d : ℤ} (h : d ∈ (decideSlot peers responses term r dec lsn).2.emptySlots) :
    d ∈ dec.emptySlots ∨ peers / 2 < 1 + (responses.filter (lacks d)).length := by
  have hle := evidenceLoop_le lsn responses 1
  simp only [decideSlot] at h
  split_ifs at h with hp
  · rcases List.mem_append.mp h with h | h
    · exact Or.inl h
    · obtain rfl := List.mem_singleton.mp h
      exact Or.inr (by omega)
  all_goals exact Or.inl h

end ResolveAndApply

section ApplySync

/-- Where `apply_sync` stands. `install` goes through the slots that one peer was asked for, `kept` being those
it did not have. -/
inductive SyncPc (n : ℕ)
  | mark (rest : List ℤ)
  | term
  | missing (term : UInt64)
  | fetch (term : UInt64) (lsns : List ℤ) (peers : List (Fin n))
  | install (term : UInt64) (resp : List JournalSlot) (todo kept : List ℤ) (peers : List (Fin n))
  | apply

def installSlot (term : UInt64) (resp : List JournalSlot) (r : MemReplica) (lsn : ℤ) : MemReplica × Bool :=
  match resp.find? fun s => s.lsn = lsn with
  | none => (r, false)
  | some s =>
    if s.isEmpty then (r.coldMarkEmpty lsn, true) else (r.coldInstallSlot lsn (toMemJournalSlot s term), true)

/-- The next step of `apply_sync` on `self`; `answer` is what the peer that is asked gives, if it is reached.
No successor means that it has returned. -/
def syncStep (m : SyncRSCommitLSNMsg) (self : Fin n) (volume : List (Fin n)) (answer : Option (List JournalSlot))
    (r : RaftReplica) : SyncPc n → RaftReplica × Option (SyncPc n)
  | .mark [] => (r, some .term)
  | .mark (lsn :: rest) => ({ r with mem := r.mem.coldMarkEmpty lsn }, some (.mark rest))
  | .term => (r, some (.missing r.mem.term))
  | .missing term => (r, some (.fetch term (getMissingSlots r.mem m.rsCommitLsn) volume))
  | .fetch _ _ [] => (r, some .apply)
  | .fetch term lsns (peer :: peers) =>
    if lsns = [] then (r, some .apply)
    else if peer = self then (r, some (.fetch term lsns peers))
    else match answer with
      | some resp => (r, some (.install term resp lsns [] peers))
      | none => (r, some (.fetch term lsns peers))
  | .install term _ [] kept peers => (r, some (.fetch term kept peers))
  | .install term resp (lsn :: todo) kept peers =>
    let (mem, done) := installSlot term resp r.mem lsn
    ({ r with mem := mem }, some (.install term resp todo (if done then kept else kept ++ [lsn]) peers))
  | .apply => ({ r with mem := r.mem.applyUpTo m.rsCommitLsn, rsCommitLsn := m.rsCommitLsn }, none)

end ApplySync

section Frame

structure Fills (r r' : MemReplica) : Prop where
  term : r'.term = r.term
  lastAppend : r.lastAppendLsn ≤ r'.lastAppendLsn

lemma Fills.refl (r : MemReplica) : Fills r r := ⟨rfl, le_rfl⟩

lemma fills_coldMarkEmpty (r : MemReplica) (d : ℤ) : Fills r (r.coldMarkEmpty d) := ⟨rfl, le_max_left _ _⟩

lemma fills_coldInstallSlot (r : MemReplica) (d : ℤ) (s : MemJournalSlot) : Fills r (r.coldInstallSlot d s) := by
  rw [MemReplica.coldInstallSlot]
  split_ifs
  · exact .refl r
  · exact ⟨rfl, le_max_left _ _⟩

lemma fills_applyUpTo (r : MemReplica) (target : ℤ) : Fills r (r.applyUpTo target) :=
  have h := MemReplica.applies_applyUpTo r target
  ⟨h.term, h.lastAppendLsn.ge⟩

lemma fills_decideSlot (peers : ℕ) (responses : List (List JournalSlot)) (term : UInt64) (r : MemReplica)
    (dec : Decided) (lsn : ℤ) : Fills r (decideSlot peers responses term r dec lsn).1 := by
  have hr : ∀ found : Option JournalSlot, Fills r (match found with
      | some s => r.coldInstallSlot lsn (toMemJournalSlot s term)
      | none => r) := by
    intro found
    cases found with
    | none => exact .refl r
    | some s => exact fills_coldInstallSlot ..
  simp only [decideSlot]
  split_ifs <;> exact hr _

lemma fills_syncStep (m : SyncRSCommitLSNMsg) (self : Fin n) (volume : List (Fin n))
    (answer : Option (List JournalSlot)) (r : RaftReplica) (pc : SyncPc n) :
    Fills r.mem (syncStep m self volume answer r pc).1.mem := by
  cases pc with
  | mark rest =>
    cases rest with
    | nil => exact .refl _
    | cons lsn rest => exact fills_coldMarkEmpty _ _
  | term | missing term => exact .refl _
  | fetch term lsns peers =>
    cases peers with
    | nil => exact .refl _
    | cons peer peers =>
      simp only [syncStep]
      split_ifs
      · exact .refl _
      · exact .refl _
      · cases answer <;> exact .refl _
  | install term resp todo kept peers =>
    cases todo with
    | nil => exact .refl _
    | cons lsn todo =>
      simp only [syncStep, installSlot]
      cases resp.find? fun s => s.lsn = lsn with
      | none => exact .refl _
      | some s =>
        simp only
        split_ifs
        · exact fills_coldMarkEmpty _ _
        · exact fills_coldInstallSlot ..
  | apply => exact fills_applyUpTo _ _

end Frame

end CraftClient.Raft
