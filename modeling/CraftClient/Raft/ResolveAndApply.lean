import CraftClient.Lib.Runs
import CraftClient.Raft.Resolution

namespace CraftClient.Raft

open Replica

variable {ι : Type} [DecidableEq ι] {self : ι} {volume : List ι} {members : ι → MemReplica}
  {answers : ι → Bool} {watermark d : ℤ} {term : UInt64} {lsns : List ℤ} {r leader : MemReplica}
  {responses : List (List JournalSlot)} {dec : Decided}

def responders (self : ι) (volume : List ι) (answers : ι → Bool) : List ι :=
  volume.filter fun p => p ≠ self && answers p

def resolveAndApply (self : ι) (volume : List ι) (members : ι → MemReplica) (answers : ι → Bool)
    (watermark : ℤ) (term : UInt64) : MemReplica × Decided :=
  let missing := getMissingSlots (members self) watermark
  if missing = [] then (members self, ⟨[], -1⟩)
  else
    let responses := (responders self volume answers).map fun p => doFetch (members p) missing
    missing.foldl (fun st lsn => decideSlot volume.length responses term st.1 st.2 lsn)
      (members self, ⟨[], -1⟩)

section Missing

lemma mem_missingLoop {expect : ℤ} {l : List (ℤ × MemJournalSlot)} (hs : l.Pairwise fun a b => a.1 < b.1)
    (hl : ∀ e ∈ l, expect ≤ e.1) :
    d ∈ missingLoop watermark expect l ↔ expect ≤ d ∧ d ≤ watermark ∧ ∀ e ∈ l, e.1 ≠ d := by
  induction l generalizing expect with
  | nil => simp only [missingLoop, mem_dlsns, List.not_mem_nil, false_implies, implies_true, and_true]; omega
  | cons a l ih =>
    obtain ⟨ha, hs⟩ := List.pairwise_cons.mp hs
    have hexp := hl a List.mem_cons_self
    have hrest : ∀ e ∈ l, a.1 + 1 ≤ e.1 := fun e he => ha e he
    simp only [missingLoop, List.forall_mem_cons]
    split_ifs with hw
    · rw [List.mem_append, mem_dlsns, ih hs hrest]
      constructor
      · rintro (hd | ⟨hlo, hhi, hne⟩)
        · refine ⟨by omega, by omega, by omega, fun e he => ?_⟩
          have hlt := hrest e he
          omega
        · exact ⟨by omega, hhi, by omega, hne⟩
      · rintro ⟨hlo, hhi, hda, hne⟩
        rcases lt_or_gt_of_ne hda with hgt | hlt
        · exact Or.inr ⟨by omega, hhi, hne⟩
        · exact Or.inl (by omega)
    · rw [mem_dlsns]
      constructor
      · intro hd
        refine ⟨by omega, by omega, by omega, fun e he => ?_⟩
        have hlt := hrest e he
        omega
      · rintro ⟨hlo, hhi, -⟩
        omega

lemma mem_getMissingSlots :
    d ∈ getMissingSlots r watermark ↔ r.commitLsn < d ∧ d ≤ watermark ∧ r.journal.find d = none := by
  rw [getMissingSlots, mem_missingLoop]
  · constructor
    · rintro ⟨hlo, hhi, hne⟩
      refine ⟨by omega, hhi, ?_⟩
      by_contra hsome
      obtain ⟨s, hs⟩ := Option.ne_none_iff_exists'.mp hsome
      refine hne (d, s) ?_ rfl
      rw [OrdMap.mem_dropWhile_lt]
      exact ⟨OrdMap.find_eq_some.mp hs, hlo⟩
    · rintro ⟨hlo, hhi, hnone⟩
      refine ⟨by omega, hhi, ?_⟩
      rintro ⟨e, s⟩ he rfl
      rw [OrdMap.mem_dropWhile_lt] at he
      rw [OrdMap.find_eq_some.mpr he.1] at hnone
      cases hnone
  · exact r.journal.sorted.sublist (List.dropWhile_sublist _)
  · intro e he
    rw [OrdMap.mem_dropWhile_lt] at he
    exact he.2

end Missing

section Evidence

def hasData (r : MemReplica) (d : ℤ) : Bool := (r.journal.find d).any fun s => !s.isEmpty

def hasEmpty (r : MemReplica) (d : ℤ) : Bool := (r.journal.find d).any MemJournalSlot.isEmpty

lemma find_doFetch (hd : d ∈ lsns) :
    (doFetch r lsns).find? (fun s => s.lsn = d) = (r.journal.find d).map (toJournalSlot d) := by
  induction lsns with
  | nil => cases hd
  | cons a l ih =>
    rw [doFetch, List.filterMap_cons]
    by_cases ha : a = d
    · subst ha
      cases hf : r.journal.find a with
      | none =>
        simp only [Option.map_none]
        rw [List.find?_eq_none]
        intro s hs
        obtain ⟨b, -, hb⟩ := List.mem_filterMap.mp hs
        obtain ⟨sb, hsb, rfl⟩ := Option.map_eq_some_iff.mp hb
        intro hba
        obtain rfl : b = a := by simpa [toJournalSlot] using hba
        simp [hf] at hsb
      | some s => simp [toJournalSlot]
    · have hl : d ∈ l := (List.mem_cons.mp hd).resolve_left (Ne.symm ha)
      cases hf : r.journal.find a with
      | none => exact ih hl
      | some s =>
        simp only [Option.map_some]
        rw [List.find?_cons_of_neg (by simpa [toJournalSlot] using ha)]
        exact ih hl

lemma lacks_doFetch (hd : d ∈ lsns) : lacks d (doFetch r lsns) = !hasData r d := by
  rw [lacks, find_doFetch hd, hasData]
  cases r.journal.find d <;> simp [toJournalSlot]

lemma evidenceLoop_found {k : ℕ} {j : JournalSlot} (h : (evidenceLoop d responses k).2 = some j) :
    ∃ resp ∈ responses, (resp.find? fun s => s.lsn = d) = some j ∧ j.isEmpty = false := by
  induction responses generalizing k with
  | nil => cases h
  | cons resp rest ih =>
    rw [evidenceLoop] at h
    cases hf : resp.find? fun s => s.lsn = d with
    | none =>
      rw [hf] at h
      obtain ⟨resp', hmem, hj⟩ := ih h
      exact ⟨resp', List.mem_cons_of_mem _ hmem, hj⟩
    | some s =>
      rw [hf] at h
      simp only at h
      split_ifs at h with he
      · obtain ⟨resp', hmem, hj⟩ := ih h
        exact ⟨resp', List.mem_cons_of_mem _ hmem, hj⟩
      · cases h
        exact ⟨resp, List.mem_cons_self, hf, by simpa using he⟩

end Evidence

section Fold

def Unclear (peers : ℕ) (responses : List (List JournalSlot)) (d : ℤ) : Prop :=
  (evidenceLoop d responses 1).1 < peers / 2 + 1 ∧ (evidenceLoop d responses 1).2 = none

structure Resolving (leader : MemReplica) (peers : ℕ) (responses : List (List JournalSlot)) (term : UInt64)
    (done : List ℤ) (r : MemReplica) (dec : Decided) : Prop where
  journal : ∀ d, r.journal.find d = if d ∈ done then
    (evidenceLoop d responses 1).2.map (toMemJournalSlot · term) else leader.journal.find d
  empties : ∀ d, d ∈ dec.emptySlots ↔ d ∈ done ∧ peers / 2 + 1 ≤ (evidenceLoop d responses 1).1
  stalled : dec.stalledLsn = -1 ∧ (∀ d ∈ done, ¬ Unclear peers responses d) ∨
    IsLeast {d | d ∈ done ∧ Unclear peers responses d} dec.stalledLsn

variable {peers : ℕ} {done : List ℤ} {lsn : ℤ}

lemma Resolving.find_decideSlot (h : Resolving leader peers responses term done r dec)
    (hnone : leader.journal.find lsn = none) (d : ℤ) :
    (decideSlot peers responses term r dec lsn).1.journal.find d =
      if d = lsn then (evidenceLoop lsn responses 1).2.map (toMemJournalSlot · term)
      else r.journal.find d := by
  have hmem : (decideSlot peers responses term r dec lsn).1 =
      (evidenceLoop lsn responses 1).2.elim r fun s => r.coldInstallSlot lsn (toMemJournalSlot s term) := by
    simp only [decideSlot]
    cases (evidenceLoop lsn responses 1).2 <;> split_ifs <;> rfl
  have hr : r.journal.find lsn = none ∨
      r.journal.find lsn = (evidenceLoop lsn responses 1).2.map (toMemJournalSlot · term) := by
    rw [h.journal, hnone]
    split_ifs <;> simp
  rw [hmem]
  cases hf : (evidenceLoop lsn responses 1).2 with
  | none =>
    rw [hf, Option.map_none, or_self] at hr
    simp only [Option.map_none, Option.elim_none]
    split_ifs with hd
    · rw [hd, hr]
    · rfl
  | some s =>
    rw [hf] at hr
    simp only [Option.elim_some, MemReplica.coldInstallSlot]
    rcases hr with hr | hr
    · simp [hr, MemReplica.append]
    · rw [if_pos (by simp [hr])]
      split_ifs with hd
      · rw [hd, hr]
      · rfl

lemma Resolving.decideSlot (h : Resolving leader peers responses term done r dec)
    (hnone : leader.journal.find lsn = none) (hpos : ∀ d ∈ done, 0 ≤ d) :
    Resolving leader peers responses term (done ++ [lsn]) (decideSlot peers responses term r dec lsn).1
      (decideSlot peers responses term r dec lsn).2 := by
  have hfind := h.find_decideSlot hnone
  refine ⟨fun d => ?_, fun d => ?_, ?_⟩
  · rw [hfind, h.journal]
    by_cases hd : d = lsn <;> simp [hd]
  · have hempties : d ∈ (Raft.decideSlot peers responses term r dec lsn).2.emptySlots ↔
        d ∈ dec.emptySlots ∨ d = lsn ∧ peers / 2 + 1 ≤ (evidenceLoop lsn responses 1).1 := by
      simp only [Raft.decideSlot]
      split_ifs with hmaj <;> simp [hmaj]
    rw [hempties, h.empties, List.mem_append, List.mem_singleton]
    constructor
    · rintro (⟨hd, hmaj⟩ | ⟨rfl, hmaj⟩)
      · exact ⟨Or.inl hd, hmaj⟩
      · exact ⟨Or.inr rfl, hmaj⟩
    · rintro ⟨hd | rfl, hmaj⟩
      · exact Or.inl ⟨hd, hmaj⟩
      · exact Or.inr ⟨rfl, hmaj⟩
  · by_cases hu : Unclear peers responses lsn
    · have hset : {d | d ∈ done ++ [lsn] ∧ Unclear peers responses d} =
          insert lsn {d | d ∈ done ∧ Unclear peers responses d} := by
        ext d
        by_cases hd : d = lsn <;> simp [hd, hu]
      have hst : (Raft.decideSlot peers responses term r dec lsn).2.stalledLsn =
          if dec.stalledLsn = -1 then lsn else min lsn dec.stalledLsn := by
        simp only [Raft.decideSlot]
        rw [if_neg (by have hlt := hu.1; omega), if_pos (by simp [hu.2])]
      rw [hset, hst]
      right
      rcases h.stalled with ⟨hs, hnone⟩ | hs
      · have hempty : {d | d ∈ done ∧ Unclear peers responses d} = ∅ := by
          rw [Set.eq_empty_iff_forall_notMem]
          exact fun d hd => hnone d hd.1 hd.2
        rw [if_pos hs, hempty]
        simp
      · have hge := hpos _ hs.1.1
        rw [if_neg (by omega)]
        exact hs.insert lsn
    · have hset : ∀ d, d ∈ done ++ [lsn] ∧ Unclear peers responses d ↔
          d ∈ done ∧ Unclear peers responses d := by
        intro d
        by_cases hd : d = lsn <;> simp [hd, hu]
      have hst : (Raft.decideSlot peers responses term r dec lsn).2.stalledLsn = dec.stalledLsn := by
        simp only [Raft.decideSlot]
        split
        · rfl
        case isFalse hmaj =>
          rw [if_neg fun hf => hu ⟨by omega, by simpa using hf⟩]
      rw [hst]
      simp only [hset]
      refine h.stalled.imp_left fun hs => ⟨hs.1, fun d hd hu' => ?_⟩
      exact hs.2 d ((hset d).mp ⟨hd, hu'⟩).1 hu'

lemma resolving_foldl (l done : List ℤ) (h : Resolving leader peers responses term done r dec)
    (hnone : ∀ d ∈ l, leader.journal.find d = none) (hpos : ∀ d ∈ done ++ l, 0 ≤ d) :
    ∃ out, l.foldl (fun st lsn => decideSlot peers responses term st.1 st.2 lsn) (r, dec) = out ∧
      Resolving leader peers responses term (done ++ l) out.1 out.2 := by
  induction l generalizing done r dec with
  | nil => exact ⟨_, rfl, by simpa using h⟩
  | cons lsn l ih =>
    have hstep := h.decideSlot (hnone lsn List.mem_cons_self) fun d hd =>
      hpos d (List.mem_append_left _ hd)
    obtain ⟨out, hout, hr⟩ := ih (done ++ [lsn]) hstep
      (fun d hd => hnone d (List.mem_cons_of_mem _ hd)) (by simpa using hpos)
    exact ⟨out, hout, by simpa using hr⟩

end Fold

section Whole

def responsesTo (self : ι) (volume : List ι) (members : ι → MemReplica) (answers : ι → Bool)
    (watermark : ℤ) : List (List JournalSlot) :=
  (responders self volume answers).map fun p => doFetch (members p) (getMissingSlots (members self) watermark)

lemma resolving_resolveAndApply (volume : List ι) (answers : ι → Bool) (watermark : ℤ) (term : UInt64)
    (hc : -1 ≤ (members self).commitLsn) :
    Resolving (members self) volume.length (responsesTo self volume members answers watermark) term
      (getMissingSlots (members self) watermark)
      (resolveAndApply self volume members answers watermark term).1
      (resolveAndApply self volume members answers watermark term).2 := by
  have hstart : Resolving (members self) volume.length (responsesTo self volume members answers watermark) term
      [] (members self) ⟨[], -1⟩ := by
    refine ⟨fun d => ?_, fun d => ?_, Or.inl ⟨rfl, ?_⟩⟩ <;> simp
  simp only [resolveAndApply]
  split_ifs with hm
  · rw [hm]
    exact hstart
  · obtain ⟨out, rfl, hr⟩ := resolving_foldl (getMissingSlots (members self) watermark) [] hstart
      (fun d hd => (mem_getMissingSlots.mp hd).2.2) fun d hd => by
        have hlt := (mem_getMissingSlots.mp hd).1
        omega
    exact hr

lemma length_filter_lacks (hd : d ∈ getMissingSlots (members self) watermark) :
    ((responsesTo self volume members answers watermark).filter (lacks d)).length =
      ((responders self volume answers).filter fun p => !hasData (members p) d).length := by
  rw [responsesTo, List.filter_map, List.length_map]
  congr 2
  funext p
  exact lacks_doFetch hd

lemma lacks_count (hself : self ∈ volume) (answers : ι → Bool)
    (hd : d ∈ getMissingSlots (members self) watermark) :
    1 + ((responsesTo self volume members answers watermark).filter (lacks d)).length +
      (volume.filter fun p => hasData (members p) d).length ≤ volume.length := by
  have hlacks : ((responders self volume answers).filter fun p => !hasData (members p) d).length <
      (volume.filter fun p => !hasData (members p) d).length := by
    rw [responders, List.filter_comm, List.length_filter_lt_length_iff_exists]
    refine ⟨self, List.mem_filter.mpr ⟨hself, ?_⟩, by simp⟩
    simp [hasData, (mem_getMissingSlots.mp hd).2.2]
  have hsplit := List.length_eq_length_filter_add (l := volume) fun p => hasData (members p) d
  rw [length_filter_lacks hd]
  omega

theorem resolve_and_apply_sound (self : ι) (volume : List ι) (members : ι → MemReplica)
    (hself : self ∈ volume) (hc : -1 ≤ (members self).commitLsn) (answers : ι → Bool) (watermark : ℤ)
    (term : UInt64) :
    let leader := members self
    let out := resolveAndApply self volume members answers watermark term
    let missing := fun d => leader.commitLsn < d ∧ d ≤ watermark ∧ leader.journal.find d = none
    (∀ d ∈ out.2.emptySlots, (volume.filter fun p => hasData (members p) d).length < volume.length / 2 + 1) ∧
    (∀ d, missing d → d ∉ out.2.emptySlots →
      (∃ p ∈ responders self volume answers, ∃ s, (members p).journal.find d = some s ∧ s.isEmpty = false ∧
        ∃ s', out.1.journal.find d = some s' ∧ SameSlot s s' ∧ s'.term = term) ∨
      out.2.stalledLsn ≠ -1 ∧ out.2.stalledLsn ≤ d) ∧
    (out.2.stalledLsn = -1 ∧ (∀ d, missing d → d ∈ out.2.emptySlots ∨ (out.1.journal.find d).isSome) ∨
      IsLeast {d | missing d ∧ d ∉ out.2.emptySlots ∧ out.1.journal.find d = none} out.2.stalledLsn) ∧
    ∀ d s, leader.journal.find d = some s → out.1.journal.find d = some s := by
  intro leader out missing
  have hr : Resolving leader volume.length (responsesTo self volume members answers watermark) term
      (getMissingSlots leader watermark) out.1 out.2 := resolving_resolveAndApply volume answers watermark term hc
  have hmem : ∀ d, missing d ↔ d ∈ getMissingSlots leader watermark := fun d => mem_getMissingSlots.symm
  have hfind : ∀ d, missing d → out.1.journal.find d =
      (evidenceLoop d (responsesTo self volume members answers watermark) 1).2.map
        (toMemJournalSlot · term) := fun d hd => (hr.journal d).trans (if_pos ((hmem d).mp hd))
  have hunclear : ∀ d, missing d → (Unclear volume.length (responsesTo self volume members answers watermark) d ↔
      d ∉ out.2.emptySlots ∧ out.1.journal.find d = none) := by
    intro d hd
    rw [hfind d hd, hr.empties, Option.map_eq_none_iff, Unclear]
    have hm := (hmem d).mp hd
    constructor
    · rintro ⟨hlt, hnone⟩
      exact ⟨fun ⟨_, hle⟩ => by omega, hnone⟩
    · rintro ⟨hne, hnone⟩
      exact ⟨not_le.mp fun hle => hne ⟨hm, hle⟩, hnone⟩
  refine ⟨fun d hd => ?_, fun d hd hne => ?_, ?_, fun d s hs => ?_⟩
  · obtain ⟨hm, hmaj⟩ := (hr.empties d).mp hd
    have hle := evidenceLoop_le d (responsesTo self volume members answers watermark) 1
    have hcount := lacks_count hself answers hm
    omega
  · cases hf : (evidenceLoop d (responsesTo self volume members answers watermark) 1).2 with
    | some j =>
      left
      obtain ⟨resp, hresp, hj, he⟩ := evidenceLoop_found hf
      obtain ⟨p, hp, rfl⟩ := List.mem_map.mp hresp
      rw [find_doFetch ((hmem d).mp hd)] at hj
      obtain ⟨s, hs, rfl⟩ := Option.map_eq_some_iff.mp hj
      exact ⟨p, hp, s, hs, he, _, by rw [hfind d hd, hf]; rfl, sameSlot_toMemJournalSlot d s term, rfl⟩
    | none =>
      right
      have hu := (hunclear d hd).mpr ⟨hne, by rw [hfind d hd, hf]; rfl⟩
      rcases hr.stalled with ⟨-, hnone⟩ | hs
      · exact absurd hu (hnone d ((hmem d).mp hd))
      · have hlt : (members self).commitLsn < out.2.stalledLsn := ((hmem _).mpr hs.1.1).1
        exact ⟨by omega, hs.2 ⟨(hmem d).mp hd, hu⟩⟩
  · rcases hr.stalled with ⟨hs, hnone⟩ | hs
    · refine Or.inl ⟨hs, fun d hd => ?_⟩
      by_cases he : d ∈ out.2.emptySlots
      · exact Or.inl he
      · right
        rw [Option.isSome_iff_ne_none]
        exact fun hf => hnone d ((hmem d).mp hd) ((hunclear d hd).mpr ⟨he, hf⟩)
    · right
      obtain ⟨⟨hm, hu⟩, hle⟩ := hs
      have hmiss := (hmem _).mpr hm
      exact ⟨⟨hmiss, (hunclear _ hmiss).mp hu⟩,
        fun d ⟨hd, hstuck⟩ => hle ⟨(hmem d).mp hd, (hunclear d hd).mpr hstuck⟩⟩
  · rw [hr.journal, if_neg, hs]
    intro hm
    have hnone := ((hmem d).mpr hm).2.2
    rw [hs] at hnone
    cases hnone

def oneHolder (i : Fin 3) : MemReplica :=
  if i = 1 then (MemReplica.new 512).coldInstallSlot 0 ⟨1, 7, 1, true, false, none⟩ else MemReplica.new 512

theorem resolve_and_apply_sound_oneHolder :
    let out := resolveAndApply 0 [0, 1, 2] oneHolder (fun _ => true) 1 2
    out.2.emptySlots = [1] ∧
      (([0, 1, 2] : List (Fin 3)).filter fun p => hasData (oneHolder p) 1).length < 2 ∧
      ∃ p ∈ responders 0 [0, 1, 2] fun _ => true, ∃ s, (oneHolder p).journal.find 0 = some s ∧
        ∃ s', out.1.journal.find 0 = some s' ∧ SameSlot s s' := by
  intro out
  have hout : out.2 = ⟨[1], -1⟩ := by decide +kernel
  obtain ⟨hempty, hother, -⟩ := resolve_and_apply_sound 0 [0, 1, 2] oneHolder (by decide) (by decide)
    (fun _ => true) 1 2
  refine ⟨by rw [hout], hempty 1 (by decide +kernel), ?_⟩
  rcases hother 0 (by decide +kernel) (by decide +kernel) with ⟨p, hp, s, hs, -, s', hs', hsame, -⟩ | ⟨hst, -⟩
  · exact ⟨p, hp, s, hs, s', hs', hsame⟩
  · rw [show (resolveAndApply 0 [0, 1, 2] oneHolder (fun _ => true) 1 2).2 = ⟨[1], -1⟩ from hout] at hst
    exact absurd rfl hst

end Whole

end CraftClient.Raft
