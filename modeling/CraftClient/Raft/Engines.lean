import CraftClient.Cluster.Model
import CraftClient.Raft.ResolveAndApply

namespace CraftClient.Raft

open Replica

variable {n : ℕ} {self : Fin n} {volume order : List (Fin n)} {members : Fin n → MemReplica}
  {answers : Fin n → Bool} {watermark d : ℤ} {term : UInt64} {k : ℕ} {l l' : List (List JournalSlot)}

inductive SlotVerdict
  | empty | filled | stalled
  deriving DecidableEq

def raftVerdict (self : Fin n) (volume : List (Fin n)) (members : Fin n → MemReplica) (answers : Fin n → Bool)
    (watermark : ℤ) (term : UInt64) (d : ℤ) : SlotVerdict :=
  let out := resolveAndApply self volume members answers watermark term
  if d ∈ out.2.emptySlots then .empty
  else if (out.1.journal.find d).isSome then .filled
  else .stalled

section Round

def roundVerdict (members : Fin n → MemReplica) (d : ℤ) :
    List (Fin n) → Option MemJournalSlot → SlotVerdict
  | [], none => .empty
  | [], some _ => .filled
  | m :: rest, copy =>
    match (members m).peekSlot d with
    | none => roundVerdict members d rest copy
    | some s => if s.isEmpty then .empty else roundVerdict members d rest (copy <|> some s)

lemma round_scan (c : Cluster.RoundCall n) (rest : List (Fin n)) (copy : Option MemJournalSlot) :
    ∃ pc, Relation.ReflTransGen (fun a b => Cluster.roundStep members c a = (members, .inl b))
        (.scan d rest copy) pc ∧
      (roundVerdict members d rest copy = .empty ∧ (∃ v, pc = .mark d c.live v) ∨
        roundVerdict members d rest copy = .filled ∧ ∃ s, pc = .fill d c.live s) := by
  induction rest generalizing copy with
  | nil =>
    cases copy with
    | none => exact ⟨_, .single rfl, Or.inl ⟨rfl, _, rfl⟩⟩
    | some s => exact ⟨_, .single rfl, Or.inr ⟨rfl, _, rfl⟩⟩
  | cons m rest ih =>
    have hstep : Cluster.roundStep members c (.scan d (m :: rest) copy) =
        (members, .inl (match (members m).peekSlot d with
          | none => .scan d rest copy
          | some s => if s.isEmpty then .mark d c.live true else .scan d rest (copy <|> some s))) := by
      cases copy <;> rfl
    rw [roundVerdict]
    cases hs : (members m).peekSlot d with
    | none =>
      rw [hs] at hstep
      obtain ⟨pc, hpc, hv⟩ := ih copy
      exact ⟨pc, .head hstep hpc, hv⟩
    | some s =>
      rw [hs] at hstep
      simp only at hstep ⊢
      split_ifs at hstep ⊢ with he
      · exact ⟨_, .single hstep, Or.inl ⟨rfl, _, rfl⟩⟩
      · obtain ⟨pc, hpc, hv⟩ := ih (copy <|> some s)
        exact ⟨pc, .head hstep hpc, hv⟩

lemma roundVerdict_eq (rest : List (Fin n)) (copy : Option MemJournalSlot) :
    roundVerdict members d rest copy =
      if rest.any fun p => hasEmpty (members p) d then .empty
      else if copy.isSome || rest.any fun p => hasData (members p) d then .filled
      else .empty := by
  induction rest generalizing copy with
  | nil => cases copy <;> simp [roundVerdict]
  | cons m rest ih =>
    rw [roundVerdict]
    cases hs : (members m).peekSlot d with
    | none =>
      have hfind : (members m).journal.find d = none := hs
      simp [ih, hasEmpty, hasData, hfind]
    | some s =>
      have hfind : (members m).journal.find d = some s := hs
      cases he : s.isEmpty with
      | true => simp [hasEmpty, hfind, he]
      | false =>
        simp [ih, hasEmpty, hasData, hfind, he]

end Round

section Evidence

lemma evidenceLoop_append (hl : ∀ resp ∈ l, lacks d resp = true) :
    evidenceLoop d (l ++ l') k = evidenceLoop d l' (k + l.length) := by
  induction l generalizing k with
  | nil => rfl
  | cons resp l ih =>
    have hresp := hl resp List.mem_cons_self
    rw [List.cons_append, evidenceLoop]
    cases hf : resp.find? fun s => s.lsn = d with
    | none => simp only [ih fun r hr => hl r (List.mem_cons_of_mem _ hr), List.length_cons]; ring_nf
    | some s =>
      have he : s.isEmpty = true := by simpa [lacks, hf] using hresp
      simp only [he, if_true, ih fun r hr => hl r (List.mem_cons_of_mem _ hr), List.length_cons]
      ring_nf

lemma evidenceLoop_cons {resp : List JournalSlot} (hr : lacks d resp = false) :
    ∃ j, evidenceLoop d (resp :: l) k = (k, some j) := by
  cases hf : resp.find? fun s => s.lsn = d with
  | none => simp [lacks, hf] at hr
  | some s =>
    have he : s.isEmpty = false := by simpa [lacks, hf] using hr
    exact ⟨s, by simp [evidenceLoop, hf, he]⟩

lemma evidenceLoop_isSome {resp : List JournalSlot} (hmem : resp ∈ l) (hr : lacks d resp = false) :
    (evidenceLoop d l k).2.isSome = true := by
  induction l generalizing k with
  | nil => cases hmem
  | cons resp' l ih =>
    cases hr' : lacks d resp' with
    | false =>
      obtain ⟨j, hj⟩ := evidenceLoop_cons (l := l) (k := k) hr'
      rw [hj]
      rfl
    | true =>
      have hl : resp ∈ l := by
        rcases List.mem_cons.mp hmem with rfl | hl
        · rw [hr'] at hr
          cases hr
        · exact hl
      have happ : evidenceLoop d (resp' :: l) k = evidenceLoop d l (k + 1) :=
        evidenceLoop_append (l := [resp']) (by simpa using hr')
      rw [happ]
      exact ih hl

lemma raftVerdict_eq (hc : -1 ≤ (members self).commitLsn) (hd : d ∈ getMissingSlots (members self) watermark) :
    raftVerdict self volume members answers watermark term d =
      if volume.length / 2 + 1 ≤ (evidenceLoop d (responsesTo self volume members answers watermark) 1).1
      then .empty
      else if (evidenceLoop d (responsesTo self volume members answers watermark) 1).2.isSome then .filled
      else .stalled := by
  have hr := resolving_resolveAndApply volume answers watermark term hc
  simp only [raftVerdict]
  rw [hr.journal, if_pos hd, Option.isSome_map]
  exact if_congr ((hr.empties d).trans (and_iff_right hd)) rfl rfl

end Evidence

section Agreement

def liveMembers (self : Fin n) (volume : List (Fin n)) (answers : Fin n → Bool) : List (Fin n) :=
  volume.filter fun p => p = self || answers p

lemma any_liveMembers {f : Fin n → Bool} (hf : f self = false) :
    (liveMembers self volume answers).any f = (responders self volume answers).any f := by
  rw [Bool.eq_iff_iff, List.any_eq_true, List.any_eq_true]
  simp only [liveMembers, responders, List.mem_filter, Bool.or_eq_true, Bool.and_eq_true, decide_eq_true_eq]
  constructor
  · rintro ⟨p, ⟨hp, hlive⟩, hfp⟩
    have hne : p ≠ self := by
      rintro rfl
      rw [hf] at hfp
      cases hfp
    exact ⟨p, ⟨hp, hne, hlive.resolve_left hne⟩, hfp⟩
  · rintro ⟨p, ⟨hp, -, ha⟩, hfp⟩
    exact ⟨p, ⟨hp, Or.inr ha⟩, hfp⟩

lemma roundVerdict_live (hd : d ∈ getMissingSlots (members self) watermark) :
    roundVerdict members d (liveMembers self volume answers) none =
      if (responders self volume answers).any fun p => hasEmpty (members p) d then .empty
      else if (responders self volume answers).any fun p => hasData (members p) d then .filled
      else .empty := by
  have hnone := (mem_getMissingSlots.mp hd).2.2
  rw [roundVerdict_eq, any_liveMembers (by simp [hasEmpty, hnone]), any_liveMembers (by simp [hasData, hnone])]
  simp

lemma responders_perm (h : order.Perm volume) :
    (responders self order answers).Perm (responders self volume answers) := h.filter _

lemma responsesTo_append (a b : List (Fin n)) :
    responsesTo self (a ++ b) members answers watermark =
      responsesTo self a members answers watermark ++ responsesTo self b members answers watermark := by
  simp [responsesTo, responders]

section Orders

variable (hd : d ∈ getMissingSlots (members self) watermark)
include hd

lemma lacks_of_mem_responsesTo {resp : List JournalSlot}
    (h : resp ∈ responsesTo self volume members answers watermark) :
    ∃ p ∈ responders self volume answers, lacks d resp = !hasData (members p) d := by
  obtain ⟨p, hp, rfl⟩ := List.mem_map.mp h
  exact ⟨p, hp, lacks_doFetch hd⟩

lemma evidence_of_holders (l' : List (List JournalSlot)) (k : ℕ)
    (hall : ∀ p ∈ volume, hasData (members p) d = true) (hne : responders self volume answers ≠ []) :
    ∃ j, evidenceLoop d (responsesTo self volume members answers watermark ++ l') k = (k, some j) := by
  obtain ⟨p, rest, hp⟩ := List.exists_cons_of_ne_nil hne
  have hmem : p ∈ volume := (List.mem_filter.mp (hp ▸ List.mem_cons_self)).1
  have hlack : lacks d (doFetch (members p) (getMissingSlots (members self) watermark)) = false := by
    rw [lacks_doFetch hd, hall p hmem]
    rfl
  rw [responsesTo, hp, List.map_cons, List.cons_append]
  exact evidenceLoop_cons hlack

lemma evidence_of_others (answers : Fin n → Bool) (l' : List (List JournalSlot)) (k : ℕ)
    (hall : ∀ p ∈ responders self volume answers, hasData (members p) d = false) :
    evidenceLoop d (responsesTo self volume members answers watermark ++ l') k =
      evidenceLoop d l' (k + (responders self volume answers).length) := by
  rw [evidenceLoop_append, responsesTo, List.length_map]
  intro resp hresp
  obtain ⟨p, hp, hlack⟩ := lacks_of_mem_responsesTo hd hresp
  rw [hlack, hall p hp]
  rfl

lemma evidence_le : (evidenceLoop d (responsesTo self volume members answers watermark) 1).1 ≤
    1 + ((responders self volume answers).filter fun p => !hasData (members p) d).length := by
  rw [← length_filter_lacks hd]
  exact evidenceLoop_le d _ 1

lemma raftVerdict_holdersFirst (hc : -1 ≤ (members self).commitLsn) (hN : 2 ≤ volume.length)
    (hholders : responders self (volume.filter fun p => hasData (members p) d) answers ≠ []) :
    raftVerdict self (volume.filter (fun p => hasData (members p) d) ++ volume.filter fun p => !hasData (members p) d)
      members answers watermark term d = .filled := by
  obtain ⟨j, hj⟩ := evidence_of_holders hd
    (responsesTo self (volume.filter fun p => !hasData (members p) d) members answers watermark) 1
    (fun p hp => (List.mem_filter.mp hp).2) hholders
  rw [raftVerdict_eq hc hd, responsesTo_append, hj, (List.filter_append_perm _ volume).length_eq, if_neg (by omega)]
  rfl

lemma raftVerdict_holdersLast (hc : -1 ≤ (members self).commitLsn)
    (hholders : responders self (volume.filter fun p => hasData (members p) d) answers ≠ []) :
    raftVerdict self (volume.filter (fun p => !hasData (members p) d) ++ volume.filter fun p => hasData (members p) d)
      members answers watermark term d =
      if volume.length / 2 + 1 ≤ 1 + ((responders self volume answers).filter fun p => !hasData (members p) d).length
      then .empty else .filled := by
  have hother : ∀ p ∈ responders self (volume.filter fun p => !hasData (members p) d) answers,
      hasData (members p) d = false := by
    intro p hp
    simpa using (List.mem_filter.mp (List.mem_filter.mp hp).1).2
  obtain ⟨j, hj⟩ := evidence_of_holders hd []
    (1 + (responders self (volume.filter fun p => !hasData (members p) d) answers).length)
    (fun p hp => (List.mem_filter.mp hp).2) hholders
  rw [List.append_nil] at hj
  have hcomm : responders self (volume.filter fun p => !hasData (members p) d) answers =
      (responders self volume answers).filter fun p => !hasData (members p) d := List.filter_comm ..
  rw [raftVerdict_eq hc hd, responsesTo_append, evidence_of_others hd answers _ 1 hother, hj,
    (List.perm_append_comm.trans (List.filter_append_perm _ volume)).length_eq, hcomm]
  rfl

lemma raftVerdict_of_copy (hc : -1 ≤ (members self).commitLsn)
    (hcopy : ∃ p ∈ responders self volume answers, hasData (members p) d = true)
    (hlt : 1 + ((responders self volume answers).filter fun p => !hasData (members p) d).length <
      volume.length / 2 + 1) : raftVerdict self volume members answers watermark term d = .filled := by
  obtain ⟨p, hp, hpd⟩ := hcopy
  have hle : (evidenceLoop d (responsesTo self volume members answers watermark) 1).1 ≤ _ := evidence_le hd
  have hsome : (evidenceLoop d (responsesTo self volume members answers watermark) 1).2.isSome = true := by
    apply evidenceLoop_isSome (List.mem_map_of_mem hp)
    rw [lacks_doFetch hd, hpd]
    rfl
  rw [raftVerdict_eq hc hd, if_neg (by omega), if_pos hsome]

lemma raftVerdict_of_noCopy (hc : -1 ≤ (members self).commitLsn)
    (hmaj : volume.length / 2 + 1 ≤ 1 + (responders self volume answers).length)
    (hnone : ∀ p ∈ responders self volume answers, hasData (members p) d = false) :
    raftVerdict self volume members answers watermark term d = .empty := by
  have hev := evidence_of_others hd answers [] 1 hnone
  rw [List.append_nil] at hev
  rw [raftVerdict_eq hc hd, hev, evidenceLoop, if_pos hmaj]

lemma roundVerdict_perm (hp : order.Perm volume) : roundVerdict members d (liveMembers self order answers) none =
    roundVerdict members d (liveMembers self volume answers) none := by
  rw [roundVerdict_live hd, roundVerdict_live hd, (responders_perm hp).any_eq, (responders_perm hp).any_eq]

lemma roundVerdict_eq_filled : roundVerdict members d (liveMembers self volume answers) none = .filled ↔
    (∀ p ∈ responders self volume answers, hasEmpty (members p) d = false) ∧
      ∃ p ∈ responders self volume answers, hasData (members p) d = true := by
  rw [roundVerdict_live hd]
  cases hE : (responders self volume answers).any fun p => hasEmpty (members p) d with
  | true =>
    obtain ⟨p, hp, hpe⟩ := List.any_eq_true.mp hE
    rw [if_pos rfl]
    refine ⟨by rintro ⟨⟩, fun h => ?_⟩
    rw [h.1 p hp] at hpe
    cases hpe
  | false =>
    rw [if_neg Bool.false_ne_true]
    have hno : ∀ p ∈ responders self volume answers, hasEmpty (members p) d = false := by simpa using hE
    rw [and_iff_right hno, ← List.any_eq_true (p := fun p => hasData (members p) d)]
    split_ifs with hD
    · exact iff_of_true rfl hD
    · exact iff_of_false (by rintro ⟨⟩) hD

end Orders

lemma two_le_length_of_responder {p : Fin n} (hself : self ∈ volume) (hp : p ∈ responders self volume answers) :
    2 ≤ volume.length := by
  obtain ⟨hpv, hb⟩ := List.mem_filter.mp hp
  simp only [Bool.and_eq_true, decide_eq_true_eq] at hb
  have hsub : [p, self] ⊆ volume := by simp [hpv, hself]
  simpa using (List.subperm_of_subset (by simp [hb.1]) hsub).length_le

theorem engines_agree_iff (self : Fin n) (volume : List (Fin n)) (members : Fin n → MemReplica)
    (answers : Fin n → Bool) (watermark : ℤ) (term : UInt64) (hc : -1 ≤ (members self).commitLsn)
    (hself : self ∈ volume) (hmaj : volume.length / 2 + 1 ≤ 1 + (responders self volume answers).length)
    (d : ℤ) (hd : d ∈ getMissingSlots (members self) watermark) :
    (∀ order, order.Perm volume → raftVerdict self order members answers watermark term d =
      roundVerdict members d (liveMembers self order answers) none) ↔
    ((∃ p ∈ responders self volume answers, hasData (members p) d = true) →
      (∀ p ∈ responders self volume answers, hasEmpty (members p) d = false) ∧
      1 + ((responders self volume answers).filter fun p => !hasData (members p) d).length <
        volume.length / 2 + 1) := by
  constructor
  · rintro h ⟨p, hp, hpd⟩
    obtain ⟨hpv, hpa⟩ := List.mem_filter.mp hp
    have hholders : responders self (volume.filter fun p => hasData (members p) d) answers ≠ [] :=
      List.ne_nil_of_mem (List.mem_filter.mpr ⟨List.mem_filter.mpr ⟨hpv, hpd⟩, hpa⟩)
    have hperm := List.filter_append_perm (fun p => hasData (members p) d) volume
    -- the holders in front decide for the copy, and behind all others as the count of those does
    have hfirst := h _ hperm
    rw [raftVerdict_holdersFirst hd hc (two_le_length_of_responder hself hp) hholders, roundVerdict_perm hd hperm]
      at hfirst
    have hlast := h _ (List.perm_append_comm.trans hperm)
    rw [raftVerdict_holdersLast hd hc hholders, roundVerdict_perm hd (List.perm_append_comm.trans hperm), ← hfirst]
      at hlast
    refine ⟨((roundVerdict_eq_filled hd).mp hfirst.symm).1, ?_⟩
    by_contra hle
    rw [if_pos (not_lt.mp hle)] at hlast
    cases hlast
  · intro h order hp
    rw [roundVerdict_perm hd hp]
    by_cases hdata : ∃ p ∈ responders self volume answers, hasData (members p) d = true
    · obtain ⟨hE, hlt⟩ := h hdata
      rw [(roundVerdict_eq_filled hd).mpr ⟨hE, hdata⟩]
      obtain ⟨p, hpr, hpd⟩ := hdata
      refine raftVerdict_of_copy hd hc ⟨p, (responders_perm hp).mem_iff.mpr hpr, hpd⟩ ?_
      rwa [((responders_perm hp).filter _).length_eq, hp.length_eq]
    · have hnone : ∀ p ∈ responders self volume answers, hasData (members p) d = false := by
        intro p hpr
        by_contra hpd
        exact hdata ⟨p, hpr, by simpa using hpd⟩
      have hD : ((responders self volume answers).any fun p => hasData (members p) d) = false := by
        simpa using hnone
      rw [roundVerdict_live hd, hD, if_neg Bool.false_ne_true, ite_self]
      refine raftVerdict_of_noCopy hd hc ?_ fun p hpr => hnone p ((responders_perm hp).mem_iff.mp hpr)
      rwa [(responders_perm hp).length_eq, hp.length_eq]

def lacksThenHolds (i : Fin 3) : MemReplica :=
  if i = 2 then (MemReplica.new 512).coldInstallSlot 0 ⟨1, 0, 1, true, false, none⟩ else MemReplica.new 512

def holdsThenEmpty (i : Fin 3) : MemReplica :=
  match i with
  | 0 => MemReplica.new 512
  | 1 => (MemReplica.new 512).coldInstallSlot 0 ⟨1, 0, 1, true, false, none⟩
  | 2 => (MemReplica.new 512).coldMarkEmpty 0

def peersHold (i : Fin 3) : MemReplica :=
  if i = 0 then MemReplica.new 512 else (MemReplica.new 512).coldInstallSlot 0 ⟨1, 0, 1, true, false, none⟩

theorem engines_agree_iff_peersHold :
    0 ∈ getMissingSlots (peersHold 0) 0 ∧
      (∀ order, order.Perm [0, 1, 2] → raftVerdict 0 order peersHold (fun _ => true) 0 2 0 =
        roundVerdict peersHold 0 (liveMembers 0 order fun _ => true) none) ∧
      roundVerdict peersHold 0 (liveMembers 0 [0, 1, 2] fun _ => true) none = .filled := by
  have hmissing : 0 ∈ getMissingSlots (peersHold 0) 0 := by decide +kernel
  refine ⟨hmissing, (engines_agree_iff 0 [0, 1, 2] peersHold (fun _ => true) 0 2 (by decide) (by decide) (by decide) 0
    hmissing).mpr ?_, by decide +kernel⟩
  rintro -
  exact ⟨by decide +kernel, by decide +kernel⟩

theorem engines_disagree :
    raftVerdict 0 [0, 1, 2] lacksThenHolds (fun _ => true) 0 2 0 = .empty ∧
    raftVerdict 0 [0, 2, 1] lacksThenHolds (fun _ => true) 0 2 0 = .filled ∧
    roundVerdict lacksThenHolds 0 [0, 1, 2] none = .filled ∧
    raftVerdict 0 [0, 1, 2] holdsThenEmpty (fun _ => true) 0 2 0 = .filled ∧
    roundVerdict holdsThenEmpty 0 [0, 1, 2] none = .empty := by
  decide +kernel

end Agreement

end CraftClient.Raft
