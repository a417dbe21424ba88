import CraftClient.Replica.Model

namespace CraftClient.Replica

variable {r r' : MemReplica} {hdr : ClientHdr} {d e upto : ℤ} {addr len : UInt64}
  {bytes : Option (List UInt8)} {s : MemJournalSlot}

namespace MemReplica

structure Applies (r r' : MemReplica) : Prop where
  journal : r'.journal = r.journal
  term : r'.term = r.term
  pageSize : r'.pageSize = r.pageSize
  lastAppendLsn : r'.lastAppendLsn = r.lastAppendLsn
  commit_le : r.commitLsn ≤ r'.commitLsn

lemma applies_applyNext (r : MemReplica) (s : MemJournalSlot) : Applies r (r.applyNext s) := by
  rw [applyNext]
  split_ifs <;> exact ⟨rfl, rfl, rfl, rfl, by simp⟩

lemma Applies.trans {r'' : MemReplica} (h : Applies r r') (h' : Applies r' r'') : Applies r r'' :=
  ⟨h'.journal.trans h.journal, h'.term.trans h.term, h'.pageSize.trans h.pageSize,
    h'.lastAppendLsn.trans h.lastAppendLsn, h.commit_le.trans h'.commit_le⟩

lemma applies_applyLoop (k : ℕ) (r : MemReplica) : Applies r (applyLoop k r) := by
  induction k generalizing r with
  | zero => exact ⟨rfl, rfl, rfl, rfl, le_rfl⟩
  | succ k ih =>
    rw [applyLoop]
    split
    · exact ⟨rfl, rfl, rfl, rfl, le_rfl⟩
    · exact (applies_applyNext r _).trans (ih _)

lemma applies_applyUpTo (r : MemReplica) (target : ℤ) : Applies r (r.applyUpTo target) :=
  applies_applyLoop _ r

lemma applyUpTo_induction {P : MemReplica → Prop} (h : P r) (target : ℤ)
    (hstep : ∀ r s, P r → r.journal.find (r.commitLsn + 1) = some s → P (r.applyNext s)) :
    P (r.applyUpTo target) := by
  rw [applyUpTo]
  generalize (target - r.commitLsn).toNat = k
  induction k generalizing r with
  | zero => exact h
  | succ k ih =>
    rw [applyLoop]
    split
    case h_1 => exact h
    case h_2 s hs => exact ih (hstep r s h hs)

@[simp] lemma applyUpTo_journal (r : MemReplica) (target : ℤ) :
    (r.applyUpTo target).journal = r.journal :=
  (applies_applyUpTo r target).journal

@[simp] lemma applyUpTo_term (r : MemReplica) (target : ℤ) : (r.applyUpTo target).term = r.term :=
  (applies_applyUpTo r target).term

lemma isSome_of_applyLoop (k : ℕ) (hd : r.commitLsn < d) (hk : d ≤ (applyLoop k r).commitLsn) :
    (r.journal.find d).isSome := by
  induction k generalizing r with
  | zero => exact absurd hk (not_le.mpr hd)
  | succ k ih =>
    rw [applyLoop] at hk
    split at hk
    · exact absurd hk (not_le.mpr hd)
    · rename_i s hs
      rcases eq_or_lt_of_le (Int.add_one_le_of_lt hd) with rfl | hlt
      · rw [hs]
        rfl
      · have hnext := applies_applyNext r s
        rw [← hnext.journal]
        exact ih hlt hk

lemma le_applyLoop {j k : ℕ} (hjk : j ≤ k)
    (h : ∀ d, r.commitLsn < d → d ≤ r.commitLsn + j → (r.journal.find d).isSome) :
    r.commitLsn + j ≤ (applyLoop k r).commitLsn := by
  induction k generalizing r j with
  | zero =>
    obtain rfl := Nat.le_zero.mp hjk
    simp [applyLoop]
  | succ k ih =>
    cases j with
    | zero =>
      rw [Nat.cast_zero, add_zero]
      exact (applies_applyLoop (k + 1) r).commit_le
    | succ j =>
      obtain ⟨s, hs⟩ := Option.isSome_iff_exists.mp (h (r.commitLsn + 1) (by omega) (by push_cast; omega))
      have hc : (r.applyNext s).commitLsn = r.commitLsn + 1 := rfl
      have hk := ih (r := r.applyNext s) (Nat.le_of_succ_le_succ hjk) (by
        intro d hd hle
        rw [hc] at hd hle
        rw [(applies_applyNext r s).journal]
        exact h d (by omega) (by push_cast; omega))
      rw [applyLoop, hs]
      push_cast
      omega

lemma isSome_of_applyUpTo {target : ℤ} (hd : r.commitLsn < d) (hk : d ≤ (r.applyUpTo target).commitLsn) :
    (r.journal.find d).isSome := isSome_of_applyLoop _ hd hk

lemma le_applyUpTo {target : ℤ} (he : e ≤ target)
    (h : ∀ d, r.commitLsn < d → d ≤ e → (r.journal.find d).isSome) : e ≤ (r.applyUpTo target).commitLsn := by
  rcases le_or_gt e r.commitLsn with hle | hlt
  · exact hle.trans (applies_applyUpTo r target).commit_le
  · have hjk : (e - r.commitLsn).toNat ≤ (target - r.commitLsn).toNat := by omega
    have hk := le_applyLoop hjk fun d hd hle => h d hd (by omega)
    rw [applyUpTo]
    omega

lemma le_applyUpTo_iff (r : MemReplica) (target : ℤ) : target ≤ (r.applyUpTo target).commitLsn ↔
    ∀ d, r.commitLsn < d → d ≤ target → (r.journal.find d).isSome :=
  ⟨fun h _ hd hle => isSome_of_applyUpTo hd (hle.trans h), le_applyUpTo le_rfl⟩

lemma applyUpTo_commit_le (r : MemReplica) (target : ℤ) :
    (r.applyUpTo target).commitLsn ≤ max r.commitLsn target := by
  have hloop : ∀ (k : ℕ) (r : MemReplica), (applyLoop k r).commitLsn ≤ r.commitLsn + k := by
    intro k
    induction k with
    | zero => exact fun r => by simp [applyLoop]
    | succ k ih =>
      intro r
      rw [applyLoop]
      split
      · omega
      · have hk := ih (r.applyNext ‹_›)
        simp only [applyNext] at hk ⊢
        push_cast
        omega
  have hk := hloop (target - r.commitLsn).toNat r
  rw [applyUpTo]
  omega

lemma applyUpTo_commitLsn {p target : ℤ} (hp : r.commitLsn ≤ p)
    (hfull : ∀ d, r.commitLsn < d → d ≤ p → (r.journal.find d).isSome) (hhole : r.journal.find (p + 1) = none) :
    (r.applyUpTo target).commitLsn = max r.commitLsn (min target p) := by
  have hlo := (applies_applyUpTo r target).commit_le
  have hhi := applyUpTo_commit_le r target
  have hge : min target p ≤ (r.applyUpTo target).commitLsn :=
    le_applyUpTo (min_le_left _ _) fun d hd hle => hfull d hd (hle.trans (min_le_right _ _))
  have hbefore : (r.applyUpTo target).commitLsn ≤ p := by
    by_contra hlt
    have hsome := isSome_of_applyUpTo (d := p + 1) (by omega) (by omega : p + 1 ≤ (r.applyUpTo target).commitLsn)
    rw [hhole] at hsome
    cases hsome
  omega

lemma exists_first_hole (r : MemReplica) (c : ℤ) :
    ∃ p, c ≤ p ∧ (∀ d, c < d → d ≤ p → (r.journal.find d).isSome) ∧ r.journal.find (p + 1) = none := by
  have hbound (l : List (ℤ × MemJournalSlot)) : ∃ b, ∀ e ∈ l, e.1 < b := by
    induction l with
    | nil => exact ⟨0, fun e he => absurd he List.not_mem_nil⟩
    | cons a l ih =>
      obtain ⟨b, hb⟩ := ih
      refine ⟨max b (a.1 + 1), List.forall_mem_cons.mpr ⟨by omega, fun e he => ?_⟩⟩
      have := hb e he
      omega
  obtain ⟨b, hb⟩ := hbound r.journal.entries
  have hsome : ∃ k : ℕ, r.journal.find (c + 1 + k) = none := by
    refine ⟨(b - c).toNat, ?_⟩
    by_contra hne
    obtain ⟨s, hs⟩ := Option.ne_none_iff_exists'.mp hne
    have := hb _ (OrdMap.find_eq_some.mp hs)
    simp only at this
    omega
  refine ⟨c + Nat.find hsome, by omega, fun d hd hle => ?_, ?_⟩
  · have hmin := Nat.find_min hsome (m := (d - c - 1).toNat) (by omega)
    have hcast : c + 1 + ((d - c - 1).toNat : ℤ) = d := by omega
    rw [hcast] at hmin
    exact Option.isSome_iff_ne_none.mpr hmin
  · have hfind := Nat.find_spec hsome
    rwa [show c + Nat.find hsome + 1 = c + 1 + Nat.find hsome by omega]

@[simp] lemma find_append (r : MemReplica) (d e : ℤ) (s : MemJournalSlot) :
    (r.append d s).journal.find e = if e = d then some s else r.journal.find e := by
  simp [append]

lemma doWrite_ok {l : LsnPair} (h : r.doWrite hdr d addr len bytes = .ok (l, r')) :
    r.misaligned addr len = false ∧ hdr.term = r.term ∧
      (∀ s, r.journal.find d = some s → s.isEmpty = false) ∧
      r' = (r.append d (r.writeSlot hdr addr len bytes)).applyUpTo hdr.commitLsn ∧
      l = r'.peekLsns := by
  simp only [doWrite] at h
  split_ifs at h with hm hb ht he
  cases h
  refine ⟨Bool.not_eq_true _ ▸ hm, not_not.mp ht, fun s hs => ?_, rfl, rfl⟩
  simpa [hs] using he

lemma doWrite_length {l : LsnPair} (h : r.doWrite hdr d addr len bytes = .ok (l, r')) :
    ∀ bs, bytes = some bs → bs.length = len.toNat := by
  rintro bs rfl
  simp only [doWrite] at h
  split_ifs at h with hm hb
  simpa using hb

lemma doRead_ok {res : ReadResult} {H : ℤ} {destSize : UInt64}
    (h : r.doRead hdr H addr len destSize = .ok (res, r')) :
    r.misaligned addr len = false ∧ hdr.term = r.term ∧ r' = r.applyUpTo hdr.commitLsn ∧
      res = ⟨(r'.readRange H addr len).1, (r'.readRange H addr len).2, r'.peekLsns⟩ := by
  simp only [doRead] at h
  split_ifs at h with hm hb ht
  cases h
  exact ⟨Bool.not_eq_true _ ▸ hm, not_not.mp ht, rfl, rfl⟩

lemma doKeepAlive_ok {l : LsnPair} (h : r.doKeepAlive hdr = .ok (l, r')) :
    hdr.term = r.term ∧ r' = r.applyUpTo hdr.commitLsn ∧ l = r'.peekLsns := by
  simp only [doKeepAlive] at h
  split_ifs at h with ht
  cases h
  exact ⟨not_not.mp ht, rfl, rfl⟩

end MemReplica

section Verdicts

def HoldsEmpty (r : MemReplica) (d : ℤ) : Prop :=
  ∃ s, r.journal.find d = some s ∧ s.isEmpty = true

def ReplyExact (r : MemReplica) (res : ResolutionResult) : Prop :=
  res.emptySlots.Pairwise (· < ·) ∧
    ∀ d, d ∈ res.emptySlots ↔ d ≤ res.resolvedUpto ∧ HoldsEmpty r d

lemma replyExact_peekEmpties (r : MemReplica) (upto : ℤ) :
    ReplyExact r ⟨upto, r.peekEmpties upto⟩ := by
  constructor
  · refine List.pairwise_map.mpr ?_
    exact (r.journal.sorted.sublist (List.takeWhile_sublist _)).filter _
  · intro d
    simp only [MemReplica.peekEmpties, List.mem_map, List.mem_filter, OrdMap.mem_takeWhile_le, HoldsEmpty,
      OrdMap.find_eq_some]
    constructor
    · rintro ⟨⟨k, s⟩, ⟨⟨hm, hle⟩, he⟩, rfl⟩
      exact ⟨hle, s, hm, he⟩
    · rintro ⟨hle, s, hm, he⟩
      exact ⟨(d, s), ⟨⟨hm, hle⟩, he⟩, rfl⟩

lemma mem_dlsns {a b : ℤ} : d ∈ MemReplica.dlsns a b ↔ a < d ∧ d ≤ b := by
  simp only [MemReplica.dlsns, List.mem_map, List.mem_range]
  constructor
  · rintro ⟨k, hk, rfl⟩
    omega
  · rintro ⟨h₁, h₂⟩
    exact ⟨(d - a - 1).toNat, by omega, by omega⟩

lemma pairwise_dlsns (a b : ℤ) : (MemReplica.dlsns a b).Pairwise (· < ·) := by
  refine List.pairwise_map.mpr (List.pairwise_lt_range.imp fun {i j} hij => ?_)
  omega

lemma dlsns_cons {a b : ℤ} (h : a < b) : MemReplica.dlsns a b = (a + 1) :: MemReplica.dlsns (a + 1) b := by
  have hnat : (b - a).toNat = (b - (a + 1)).toNat + 1 := by omega
  rw [MemReplica.dlsns, hnat, List.range_succ_eq_map, List.map_cons, List.map_map, MemReplica.dlsns]
  simp only [Function.comp_def, Nat.cast_zero, add_zero, List.cons.injEq, true_and, Nat.succ_eq_add_one, Nat.cast_add,
    Nat.cast_one]
  exact List.map_congr_left fun k _ => by ring

lemma dlsns_nil {a b : ℤ} (h : b ≤ a) : MemReplica.dlsns a b = [] := by
  rw [MemReplica.dlsns, Int.toNat_eq_zero.mpr (by omega)]
  rfl

lemma length_dlsns (a b : ℤ) : (MemReplica.dlsns a b).length = (b - a).toNat := by
  rw [MemReplica.dlsns, List.length_map, List.length_range]

lemma foldl_resolveSlot (term : UInt64) (ds : List ℤ) (hds : ds.Pairwise (· < ·))
    (j : OrdMap ℤ MemJournalSlot) (out : List ℤ) :
    (ds.foldl (MemReplica.resolveSlot term) (j, out)).2 =
        out ++ ds.filter (fun d => (j.find d).all MemJournalSlot.isEmpty) ∧
      ∀ e, (ds.foldl (MemReplica.resolveSlot term) (j, out)).1.find e =
        if e ∈ ds ∧ j.find e = none then some (emptySlot term) else j.find e := by
  induction ds generalizing j out with
  | nil => simp
  | cons d ds ih =>
    obtain ⟨hd, hds⟩ := List.pairwise_cons.mp hds
    rw [List.foldl_cons]
    cases hf : j.find d with
    | none =>
      have hstep : MemReplica.resolveSlot term (j, out) d =
          (j.insert d (emptySlot term), out ++ [d]) := by
        simp [MemReplica.resolveSlot, hf]
      obtain ⟨h₁, h₂⟩ := ih hds (j.insert d (emptySlot term)) (out ++ [d])
      rw [hstep, h₁]
      constructor
      · have hsame : ds.filter (fun e =>
            ((j.insert d (emptySlot term)).find e).all MemJournalSlot.isEmpty) =
            ds.filter fun e => (j.find e).all MemJournalSlot.isEmpty := by
          refine List.filter_congr fun e he => ?_
          rw [OrdMap.find_insert, if_neg (hd e he).ne']
        rw [hsame, List.filter_cons_of_pos (by simp [hf]), List.append_assoc]
        rfl
      · intro e
        rw [h₂, OrdMap.find_insert]
        by_cases hed : e = d
        · subst hed
          simp [hf]
        · simp [hed]
    | some s =>
      have hkeep : (MemReplica.resolveSlot term (j, out) d) =
          (j, if s.isEmpty then out ++ [d] else out) := by
        simp only [MemReplica.resolveSlot, hf]
        split_ifs <;> rfl
      obtain ⟨h₁, h₂⟩ := ih hds j (if s.isEmpty then out ++ [d] else out)
      rw [hkeep, h₁]
      constructor
      · by_cases hs : s.isEmpty <;> simp [hf, hs]
      · intro e
        rw [h₂]
        by_cases hed : e = d
        · subst hed
          simp [hf]
        · simp [hed]

lemma doResolveLocal_ok {res : ResolutionResult} (h : r.doResolveLocal hdr upto = .ok (res, r')) :
    res.resolvedUpto = upto ∧
      res.emptySlots = (MemReplica.dlsns r.commitLsn upto).filter
        (fun d => (r.journal.find d).all MemJournalSlot.isEmpty) ∧
      ∀ e, r'.journal.find e = if (r.commitLsn < e ∧ e ≤ upto) ∧ r.journal.find e = none then
        some (emptySlot r.term) else r.journal.find e := by
  simp only [MemReplica.doResolveLocal] at h
  split_ifs at h
  obtain ⟨h₁, h₂⟩ := foldl_resolveSlot r.term _ (pairwise_dlsns r.commitLsn upto) r.journal []
  cases h
  refine ⟨rfl, by simpa using h₁, fun e => ?_⟩
  rw [MemReplica.applyUpTo_journal]
  simpa only [mem_dlsns] using h₂ e

lemma isSome_of_doResolveLocal {res : ResolutionResult} (h : r.doResolveLocal hdr upto = .ok (res, r'))
    (hd : r.commitLsn < d) (hle : d ≤ r'.commitLsn) : (r'.journal.find d).isSome := by
  simp only [MemReplica.doResolveLocal] at h
  split_ifs at h
  cases h
  rw [MemReplica.applyUpTo_journal]
  exact MemReplica.isSome_of_applyUpTo hd hle

lemma replyExact_doResolveLocal_iff {res : ResolutionResult}
    (h : r.doResolveLocal hdr upto = .ok (res, r')) :
    ReplyExact r' res ↔ ∀ d, d ≤ r.commitLsn → d ≤ upto → ¬ HoldsEmpty r d := by
  obtain ⟨hu, hl, hj⟩ := doResolveLocal_ok h
  have hmem : ∀ d, d ∈ res.emptySlots ↔
      (r.commitLsn < d ∧ d ≤ upto) ∧ (r.journal.find d = none ∨ HoldsEmpty r d) := by
    intro d
    rw [hl, List.mem_filter, mem_dlsns, HoldsEmpty]
    cases r.journal.find d <;> simp
  constructor
  · rintro ⟨-, hex⟩ d hc hle ⟨s, hs, he⟩
    have hr' : HoldsEmpty r' d := ⟨s, by rw [hj, if_neg (by simp [hs]), hs], he⟩
    have hin := (hmem d).mp ((hex d).mpr ⟨hu ▸ hle, hr'⟩)
    omega
  · intro hno
    refine ⟨by rw [hl]; exact (pairwise_dlsns _ _).filter _, fun d => ?_⟩
    rw [hmem, hu]
    constructor
    · rintro ⟨⟨hlt, hle⟩, hf | ⟨s, hs, he⟩⟩
      · exact ⟨hle, emptySlot r.term, by rw [hj, if_pos ⟨⟨hlt, hle⟩, hf⟩], rfl⟩
      · exact ⟨hle, s, by rw [hj, if_neg (by simp [hs]), hs], he⟩
    · rintro ⟨hle, s, hs, he⟩
      rw [hj] at hs
      split_ifs at hs with hcase
      · exact ⟨hcase.1, Or.inl hcase.2⟩
      · have hr : HoldsEmpty r d := ⟨s, hs, he⟩
        refine ⟨⟨?_, hle⟩, Or.inr hr⟩
        by_contra hc
        exact hno d (not_lt.mp hc) hle hr

end Verdicts

section Members

structure AppendsAt {ι : Type} (members members' : ι → MemReplica) (m : ι) (d : ℤ) (s : MemJournalSlot) : Prop where
  self : members' m = (members m).append d s
  other : ∀ q, q ≠ m → members' q = members q

namespace AppendsAt

variable {ι : Type} {members members' : ι → MemReplica} {m q : ι}

lemma commitLsn (h : AppendsAt members members' m d s) (q : ι) :
    (members' q).commitLsn = (members q).commitLsn := by
  rcases eq_or_ne q m with rfl | hq
  · rw [h.self]
    rfl
  · rw [h.other q hq]

lemma le_lastAppendLsn (h : AppendsAt members members' m d s) (q : ι) :
    (members q).lastAppendLsn ≤ (members' q).lastAppendLsn := by
  rcases eq_or_ne q m with rfl | hq
  · rw [h.self]
    exact le_max_left _ _
  · rw [h.other q hq]

variable [DecidableEq ι]

lemma find (h : AppendsAt members members' m d s) (q : ι) (e : ℤ) : (members' q).journal.find e =
    if q = m ∧ e = d then some s else (members q).journal.find e := by
  rcases eq_or_ne q m with rfl | hq
  · rw [h.self, MemReplica.find_append]
    simp
  · rw [h.other q hq, if_neg fun hqe => hq hqe.1]

lemma of_find (h : AppendsAt members members' m d s) {sl : MemJournalSlot}
    (hs : (members' q).journal.find e = some sl) :
    q = m ∧ e = d ∧ sl = s ∨ (members q).journal.find e = some sl := by
  rw [h.find] at hs
  split_ifs at hs with hqe
  · exact .inl ⟨hqe.1, hqe.2, (Option.some.inj hs).symm⟩
  · exact .inr hs

lemma isSome_find (h : AppendsAt members members' m d s) (hs : ((members q).journal.find e).isSome) :
    ((members' q).journal.find e).isSome := by
  rw [h.find]
  split_ifs
  · rfl
  · exact hs

end AppendsAt

end Members

end CraftClient.Replica
