import CraftClient.Raft.Missing

namespace CraftClient.Raft

open Replica

variable {n : ℕ} {m : SyncRSCommitLSNMsg} {self : Fin n} {volume peers : List (Fin n)} {members : Fin n → MemReplica}
  {answers : Fin n → Bool} {r r₀ : RaftReplica} {mem mem₀ : MemReplica} {term : UInt64} {d : ℤ}
  {lsns missing todo kept : List ℤ} {resp : List JournalSlot} {asked : List (Fin n)}

section Run

def syncAnswer (members : Fin n → MemReplica) (answers : Fin n → Bool) : SyncPc n → Option (List JournalSlot)
  | .fetch _ lsns (peer :: _) => if answers peer then some (doFetch (members peer) lsns) else none
  | _ => none

def syncAlone (m : SyncRSCommitLSNMsg) (self : Fin n) (volume : List (Fin n)) (members : Fin n → MemReplica)
    (answers : Fin n → Bool) : RaftReplica × Option (SyncPc n) → RaftReplica × Option (SyncPc n)
  | (r, some pc) => syncStep m self volume (syncAnswer members answers pc) r pc
  | (r, none) => (r, none)

def SyncRuns (m : SyncRSCommitLSNMsg) (self : Fin n) (volume : List (Fin n)) (members : Fin n → MemReplica)
    (answers : Fin n → Bool) (st st' : RaftReplica × Option (SyncPc n)) : Prop :=
  ∃ k, (syncAlone m self volume members answers)^[k] st = st'

namespace SyncRuns

variable {st st' st'' : RaftReplica × Option (SyncPc n)}

lemma refl : SyncRuns m self volume members answers st st := ⟨0, rfl⟩

lemma head (h : SyncRuns m self volume members answers (syncAlone m self volume members answers st) st') :
    SyncRuns m self volume members answers st st' := by
  obtain ⟨k, hk⟩ := h
  exact ⟨k + 1, hk⟩

lemma trans (h : SyncRuns m self volume members answers st st') (h' : SyncRuns m self volume members answers st' st'') :
    SyncRuns m self volume members answers st st'' := by
  obtain ⟨k, rfl⟩ := h
  obtain ⟨l, rfl⟩ := h'
  exact ⟨l + k, Function.iterate_add_apply ..⟩

end SyncRuns

lemma mark_runs (rest : List ℤ) (r : RaftReplica) : SyncRuns m self volume members answers (r, some (.mark rest))
    ({ r with mem := rest.foldl MemReplica.coldMarkEmpty r.mem }, some .term) := by
  induction rest generalizing r with
  | nil => exact .head .refl
  | cons lsn rest ih => exact .head (ih { r with mem := r.mem.coldMarkEmpty lsn })

lemma install_runs (todo kept : List ℤ) (r : RaftReplica) :
    SyncRuns m self volume members answers (r, some (.install term resp todo kept peers))
      ({ r with mem := todo.foldl (fun mem lsn => (installSlot term resp mem lsn).1) r.mem },
        some (.fetch term (kept ++ todo.filter fun lsn => (resp.find? fun s => s.lsn = lsn).isNone) peers)) := by
  induction todo generalizing kept r with
  | nil =>
    rw [List.filter_nil, List.append_nil]
    exact .head .refl
  | cons lsn todo ih =>
    apply SyncRuns.head
    have hdone : (installSlot term resp r.mem lsn).2 = !(resp.find? fun s => s.lsn = lsn).isNone := by
      rw [installSlot]
      cases resp.find? fun s => s.lsn = lsn with
      | none => rfl
      | some s =>
        simp only
        split_ifs <;> rfl
    have hkept : kept ++ (lsn :: todo).filter (fun lsn => (resp.find? fun s => s.lsn = lsn).isNone) =
        (if (installSlot term resp r.mem lsn).2 then kept else kept ++ [lsn]) ++
          todo.filter fun lsn => (resp.find? fun s => s.lsn = lsn).isNone := by
      rw [hdone]
      cases hs : (resp.find? fun s => s.lsn = lsn).isNone with
      | true => rw [List.filter_cons, hs, if_pos rfl, List.append_cons, Bool.not_true, if_neg Bool.false_ne_true]
      | false => rw [List.filter_cons, hs, if_neg Bool.false_ne_true, Bool.not_false, if_pos rfl]
    rw [hkept]
    exact ih _ { r with mem := (installSlot term resp r.mem lsn).1 }

end Run

section Journal

lemma markAll (rest : List ℤ) (mem : MemReplica) :
    (rest.foldl MemReplica.coldMarkEmpty mem).commitLsn = mem.commitLsn ∧
      (rest.foldl MemReplica.coldMarkEmpty mem).term = mem.term ∧
      ∀ d, (rest.foldl MemReplica.coldMarkEmpty mem).journal.find d =
        if d ∈ rest then some (emptySlot mem.term) else mem.journal.find d := by
  induction rest generalizing mem with
  | nil => exact ⟨rfl, rfl, fun d => (if_neg List.not_mem_nil).symm⟩
  | cons lsn rest ih =>
    obtain ⟨hc, ht, hf⟩ := ih (mem.coldMarkEmpty lsn)
    refine ⟨hc, ht, fun d => ?_⟩
    rw [List.foldl_cons, hf, MemReplica.coldMarkEmpty, MemReplica.find_append]
    by_cases hd : d ∈ rest
    · rw [if_pos hd, if_pos (List.mem_cons_of_mem lsn hd)]
      rfl
    · rw [if_neg hd]
      simp only [List.mem_cons, hd, or_false]

def installed (now term : UInt64) (j : JournalSlot) : MemJournalSlot :=
  if j.isEmpty then emptySlot now else toMemJournalSlot j term

lemma installSlot_hole (term : UInt64) (resp : List JournalSlot) (hhole : mem.journal.find d = none) :
    (installSlot term resp mem d).1.commitLsn = mem.commitLsn ∧ (installSlot term resp mem d).1.term = mem.term ∧
      ∀ e, (installSlot term resp mem d).1.journal.find e =
        if e = d then (resp.find? fun s => s.lsn = d).map (installed mem.term term) else mem.journal.find e := by
  rw [installSlot]
  cases resp.find? fun s => s.lsn = d with
  | none =>
    refine ⟨rfl, rfl, fun e => ?_⟩
    split_ifs with he
    · rw [he, hhole]
      rfl
    · rfl
  | some s =>
    simp only [Option.map_some, installed]
    split_ifs with hs
    · exact ⟨rfl, rfl, fun e => MemReplica.find_append ..⟩
    · rw [MemReplica.coldInstallSlot, hhole, if_neg (by simp)]
      exact ⟨rfl, rfl, fun e => MemReplica.find_append ..⟩

lemma installAll (term : UInt64) (resp : List JournalSlot) (hnodup : todo.Nodup)
    (hhole : ∀ d ∈ todo, mem.journal.find d = none) :
    (todo.foldl (fun mem lsn => (installSlot term resp mem lsn).1) mem).commitLsn = mem.commitLsn ∧
      (todo.foldl (fun mem lsn => (installSlot term resp mem lsn).1) mem).term = mem.term ∧
      ∀ d, (todo.foldl (fun mem lsn => (installSlot term resp mem lsn).1) mem).journal.find d =
        if d ∈ todo then (resp.find? fun s => s.lsn = d).map (installed mem.term term) else mem.journal.find d := by
  induction todo generalizing mem with
  | nil => exact ⟨rfl, rfl, fun d => (if_neg List.not_mem_nil).symm⟩
  | cons lsn todo ih =>
    obtain ⟨hnew, hnodup⟩ := List.nodup_cons.mp hnodup
    obtain ⟨hhead, htail⟩ := List.forall_mem_cons.mp hhole
    obtain ⟨hc, ht, hf⟩ := installSlot_hole term resp hhead
    have hrest : ∀ d ∈ todo, (installSlot term resp mem lsn).1.journal.find d = none := by
      intro d hd
      rw [hf, if_neg (ne_of_mem_of_not_mem hd hnew), htail d hd]
    obtain ⟨hc', ht', hf'⟩ := ih hnodup hrest
    refine ⟨hc'.trans hc, ht'.trans ht, fun d => ?_⟩
    rw [List.foldl_cons, hf', hf]
    by_cases hd : d ∈ todo
    · rw [if_pos hd, if_pos (List.mem_cons_of_mem lsn hd), ht]
    · rw [if_neg hd]
      simp only [List.mem_cons, hd, or_false]
      split_ifs with heq
      · rw [heq]
      · rfl

end Journal

section Fetch

def firstCopy (members : Fin n → MemReplica) (asked : List (Fin n)) (d : ℤ) : Option MemJournalSlot :=
  asked.findSome? fun p => (members p).journal.find d

lemma sameSlot_installed (now term : UInt64) (d : ℤ) (s : MemJournalSlot) :
    SameSlot s (installed now term (toJournalSlot d s)) := by
  rw [installed]
  cases he : s.isEmpty with
  | true =>
    have hno : s.isEmpty ≠ false := ne_of_eq_of_ne he (by decide)
    rw [if_pos (show (toJournalSlot d s).isEmpty = true from he)]
    exact ⟨he.symm, fun h => absurd h hno, fun h => absurd h hno, fun h => absurd h hno, fun h => absurd h hno⟩
  | false =>
    rw [if_neg (by rw [toJournalSlot, he]; exact Bool.false_ne_true)]
    exact sameSlot_toMemJournalSlot d s term

structure Fetched (members : Fin n → MemReplica) (mem₀ : MemReplica) (missing : List ℤ) (asked : List (Fin n))
    (mem : MemReplica) (lsns : List ℤ) : Prop where
  commit : mem.commitLsn = mem₀.commitLsn
  nodup : lsns.Nodup
  left : ∀ d, d ∈ lsns ↔ d ∈ missing ∧ firstCopy members asked d = none
  other : ∀ d, d ∉ missing → mem.journal.find d = mem₀.journal.find d
  hole : ∀ d ∈ missing, firstCopy members asked d = none → mem.journal.find d = none
  copy : ∀ d ∈ missing, ∀ s, firstCopy members asked d = some s → ∃ s', mem.journal.find d = some s' ∧ SameSlot s s'

lemma firstCopy_concat (members : Fin n → MemReplica) (asked : List (Fin n)) (p : Fin n) (d : ℤ) :
    firstCopy members (asked ++ [p]) d = (firstCopy members asked d).or ((members p).journal.find d) := by
  rw [firstCopy, List.findSome?_append, firstCopy]
  simp

lemma Fetched.of_nil (h : Fetched members mem₀ missing asked mem []) (more : List (Fin n)) :
    Fetched members mem₀ missing (asked ++ more) mem [] := by
  have hsome (d : ℤ) (hd : d ∈ missing) : ∃ s, firstCopy members asked d = some s := by
    apply Option.ne_none_iff_exists'.mp
    exact fun hnone => absurd ((h.left d).mpr ⟨hd, hnone⟩) List.not_mem_nil
  have happ (d : ℤ) (s : MemJournalSlot) (hs : firstCopy members asked d = some s) :
      firstCopy members (asked ++ more) d = some s := by
    rw [firstCopy, List.findSome?_append]
    rw [firstCopy] at hs
    rw [hs, Option.some_or]
  refine ⟨h.commit, h.nodup, fun d => ⟨fun hd => absurd hd List.not_mem_nil, ?_⟩, h.other, ?_, ?_⟩
  · rintro ⟨hd, hnone⟩
    obtain ⟨s, hs⟩ := hsome d hd
    rw [happ d s hs] at hnone
    cases hnone
  · intro d hd hnone
    obtain ⟨s, hs⟩ := hsome d hd
    rw [happ d s hs] at hnone
    cases hnone
  · intro d hd s hs
    obtain ⟨s₁, hs₁⟩ := hsome d hd
    rw [happ d s₁ hs₁] at hs
    cases hs
    exact h.copy d hd s hs₁

lemma Fetched.answer (h : Fetched members mem₀ missing asked mem lsns) (term : UInt64) (p : Fin n) :
    Fetched members mem₀ missing (asked ++ [p])
      (lsns.foldl (fun mem lsn => (installSlot term (doFetch (members p) lsns) mem lsn).1) mem)
      (lsns.filter fun lsn => ((doFetch (members p) lsns).find? fun s => s.lsn = lsn).isNone) := by
  have hopen : ∀ d ∈ lsns, mem.journal.find d = none := fun d hd => h.hole d ((h.left d).mp hd).1 ((h.left d).mp hd).2
  obtain ⟨hc, ht, hf⟩ := installAll term (doFetch (members p) lsns) h.nodup hopen
  refine ⟨hc.trans h.commit, h.nodup.filter _, fun d => ?_, fun d hd => ?_, fun d hd hnone => ?_, fun d hd s hs => ?_⟩
  · rw [List.mem_filter, firstCopy_concat, Option.or_eq_none_iff, ← and_assoc, ← h.left d]
    refine and_congr_right fun hd => ?_
    rw [find_doFetch hd, Option.isNone_iff_eq_none, Option.map_eq_none_iff]
  · rw [hf, if_neg fun hin => hd ((h.left d).mp hin).1, h.other d hd]
  · rw [firstCopy_concat, Option.or_eq_none_iff] at hnone
    have hin := (h.left d).mpr ⟨hd, hnone.1⟩
    rw [hf, if_pos hin, find_doFetch hin, hnone.2]
    rfl
  · rw [firstCopy_concat] at hs
    rw [hf]
    cases hfirst : firstCopy members asked d with
    | some s₁ =>
      -- an earlier peer had it, so it was not asked for again
      rw [hfirst, Option.some_or] at hs
      cases hs
      have hout : d ∉ lsns := by
        intro hin
        rw [((h.left d).mp hin).2] at hfirst
        cases hfirst
      rw [if_neg hout]
      exact h.copy d hd s hfirst
    | none =>
      rw [hfirst, Option.none_or] at hs
      have hin := (h.left d).mpr ⟨hd, hfirst⟩
      rw [if_pos hin, find_doFetch hin, hs]
      exact ⟨_, rfl, sameSlot_installed mem.term term d s⟩

lemma syncAlone_fetch (m : SyncRSCommitLSNMsg) (volume : List (Fin n)) (peer : Fin n) :
    syncAlone m self volume members answers (r, some (.fetch term lsns (peer :: peers))) =
      (r, some (if lsns = [] then .apply else if peer = self then .fetch term lsns peers
        else if answers peer then .install term (doFetch (members peer) lsns) lsns [] peers
        else .fetch term lsns peers)) := by
  simp only [syncAlone, syncStep, syncAnswer]
  split_ifs <;> rfl

lemma fetch_runs (h : Fetched members mem₀ missing asked r.mem lsns) :
    ∃ r' lsns', SyncRuns m self volume members answers (r, some (.fetch term lsns peers)) (r', some .apply) ∧
      Fetched members mem₀ missing (asked ++ responders self peers answers) r'.mem lsns' := by
  induction peers generalizing r lsns asked with
  | nil => exact ⟨r, lsns, .head .refl, by rwa [responders, List.filter_nil, List.append_nil]⟩
  | cons peer peers ih =>
    by_cases hnil : lsns = []
    · subst hnil
      refine ⟨r, [], .head ?_, h.of_nil _⟩
      rw [syncAlone_fetch, if_pos rfl]
      exact .refl
    by_cases hself : peer = self
    · obtain ⟨r', lsns', hrun, hf⟩ := ih h
      refine ⟨r', lsns', .head ?_, ?_⟩
      · rw [syncAlone_fetch, if_neg hnil, if_pos hself]
        exact hrun
      · rw [responders, List.filter_cons_of_neg (by simp [hself])]
        exact hf
    cases ha : answers peer with
    | false =>
      obtain ⟨r', lsns', hrun, hf⟩ := ih h
      refine ⟨r', lsns', .head ?_, ?_⟩
      · rw [syncAlone_fetch, if_neg hnil, if_neg hself, ha, if_neg Bool.false_ne_true]
        exact hrun
      · rw [responders, List.filter_cons_of_neg (by simp [ha])]
        exact hf
    | true =>
      obtain ⟨r', lsns', hrun, hf⟩ := @ih { r with mem := _ } _ _ (h.answer term peer)
      refine ⟨r', lsns', .head ?_, ?_⟩
      · rw [syncAlone_fetch, if_neg hnil, if_neg hself, ha, if_pos rfl]
        exact (install_runs lsns [] r).trans hrun
      · rw [responders, List.filter_cons_of_pos (by simp [hself, ha]), List.append_cons]
        exact hf

end Fetch

section Converges

structure Synced (m : SyncRSCommitLSNMsg) (self : Fin n) (volume : List (Fin n)) (members : Fin n → MemReplica)
    (answers : Fin n → Bool) (r r' : MemReplica) : Prop where
  marked : ∀ d ∈ m.emptySlots, ∃ s, r'.journal.find d = some s ∧ s.isEmpty = true
  kept : ∀ d, r.commitLsn < d → d ≤ m.rsCommitLsn → d ∉ m.emptySlots → (r.journal.find d).isSome →
    r'.journal.find d = r.journal.find d
  copied : ∀ d, r.commitLsn < d → d ≤ m.rsCommitLsn → d ∉ m.emptySlots → r.journal.find d = none →
    ∀ s, firstCopy members (responders self volume answers) d = some s →
      ∃ s', r'.journal.find d = some s' ∧ SameSlot s s'
  absent : ∀ d, r.commitLsn < d → d ≤ m.rsCommitLsn → d ∉ m.emptySlots → r.journal.find d = none →
    firstCopy members (responders self volume answers) d = none → r'.journal.find d = none
  commit : ∃ p, r.commitLsn ≤ p ∧ (∀ d, r.commitLsn < d → d ≤ p → (r'.journal.find d).isSome) ∧
    r'.journal.find (p + 1) = none ∧ r'.commitLsn = max r.commitLsn (min m.rsCommitLsn p)

lemma synced_of_fetched (hmem₀ : mem₀ = m.emptySlots.foldl MemReplica.coldMarkEmpty r.mem)
    (h : Fetched members mem₀ (getMissingSlots mem₀ m.rsCommitLsn) (responders self volume answers) mem lsns) :
    Synced m self volume members answers r.mem (mem.applyUpTo m.rsCommitLsn) := by
  obtain ⟨hc, ht, hf⟩ := markAll m.emptySlots r.mem
  rw [← hmem₀] at hc ht hf
  have hmissing (d : ℤ) : d ∈ getMissingSlots mem₀ m.rsCommitLsn ↔
      r.mem.commitLsn < d ∧ d ≤ m.rsCommitLsn ∧ d ∉ m.emptySlots ∧ r.mem.journal.find d = none := by
    rw [mem_getMissingSlots, hc, hf]
    split_ifs with hd
    · simp [hd]
    · simp [hd]
  constructor
  · intro d hd
    refine ⟨emptySlot r.mem.term, ?_, rfl⟩
    rw [MemReplica.applyUpTo_journal, h.other d fun hin => ((hmissing d).mp hin).2.2.1 hd, hf, if_pos hd]
  · intro d hlo hhi hd hsome
    have hin : d ∉ getMissingSlots mem₀ m.rsCommitLsn := by
      intro hin
      rw [((hmissing d).mp hin).2.2.2] at hsome
      cases hsome
    rw [MemReplica.applyUpTo_journal, h.other d hin, hf, if_neg hd]
  · intro d hlo hhi hd hnone s hs
    rw [MemReplica.applyUpTo_journal]
    exact h.copy d ((hmissing d).mpr ⟨hlo, hhi, hd, hnone⟩) s hs
  · intro d hlo hhi hd hnone hs
    rw [MemReplica.applyUpTo_journal]
    exact h.hole d ((hmissing d).mpr ⟨hlo, hhi, hd, hnone⟩) hs
  · have hcommit : mem.commitLsn = r.mem.commitLsn := h.commit.trans hc
    obtain ⟨p, hp, hfull, hhole⟩ := MemReplica.exists_first_hole mem mem.commitLsn
    rw [MemReplica.applyUpTo_commitLsn hp hfull hhole, MemReplica.applyUpTo_journal]
    rw [hcommit] at hp hfull ⊢
    exact ⟨p, hp, hfull, hhole, rfl⟩

theorem apply_sync_converges (m : SyncRSCommitLSNMsg) (self : Fin n) (volume : List (Fin n))
    (members : Fin n → MemReplica) (answers : Fin n → Bool) (r : RaftReplica) :
    ∃ (k : ℕ) (r' : RaftReplica),
      (∀ j ≥ k, (syncAlone m self volume members answers)^[j] (r, some (.mark m.emptySlots)) = (r', none)) ∧
      Synced m self volume members answers r.mem r'.mem := by
  set mem₀ := m.emptySlots.foldl MemReplica.coldMarkEmpty r.mem with hmem₀
  have hstart : Fetched members mem₀ (getMissingSlots mem₀ m.rsCommitLsn) [] mem₀
      (getMissingSlots mem₀ m.rsCommitLsn) := by
    refine ⟨rfl, ((missing_sorted mem₀ m.rsCommitLsn).imp ne_of_lt), fun d => ?_, fun _ _ => rfl, ?_, ?_⟩
    · exact ⟨fun hd => ⟨hd, rfl⟩, And.left⟩
    · exact fun d hd _ => (mem_getMissingSlots.mp hd).2.2
    · exact fun d hd s hs => by cases hs
  obtain ⟨r', lsns', hfetch, hfetched⟩ :=
    @fetch_runs n m self volume volume members answers { r with mem := mem₀ } mem₀ mem₀.term _ _ [] hstart
  have happly : SyncRuns m self volume members answers (r', some .apply)
      ({ r' with mem := r'.mem.applyUpTo m.rsCommitLsn, rsCommitLsn := m.rsCommitLsn }, none) := .head .refl
  obtain ⟨k, hk⟩ := ((mark_runs m.emptySlots r).trans (.head (.head hfetch))).trans happly
  refine ⟨k, { r' with mem := r'.mem.applyUpTo m.rsCommitLsn, rsCommitLsn := m.rsCommitLsn }, fun j hj => ?_,
    synced_of_fetched hmem₀ hfetched⟩
  rw [← Nat.sub_add_cancel hj, Function.iterate_add_apply, hk]
  exact Function.iterate_fixed rfl _

end Converges

end CraftClient.Raft
