import CraftClient.Replica.Journal

namespace CraftClient.Replica

variable {r r' : MemReplica} {hdr : ClientHdr} {d e H : ℤ} {x addr len : UInt64}
  {bytes : Option (List UInt8)} {s : MemJournalSlot}

namespace MemReplica

section Tail

variable {c : ℤ} {l : List (ℤ × MemJournalSlot)}

lemma highestLoop_some (hl : l.Pairwise fun a b => b.1 < a.1) (h : highestLoop c x l = some (d, s)) :
    (d, s) ∈ l ∧ c < d ∧ s.isEmpty = false ∧ s.covers x = true ∧
      ∀ a ∈ l, d < a.1 → a.2.isEmpty = false → a.2.covers x = false := by
  induction l with
  | nil => cases h
  | cons a l ih =>
    obtain ⟨ha, hl⟩ := List.pairwise_cons.mp hl
    have hskip : highestLoop c x l = some (d, s) → (a.2.isEmpty = false → a.2.covers x = false) →
        (d, s) ∈ a :: l ∧ c < d ∧ s.isEmpty = false ∧ s.covers x = true ∧
          ∀ b ∈ a :: l, d < b.1 → b.2.isEmpty = false → b.2.covers x = false := by
      intro h hcov
      obtain ⟨hm, hc, he, hx, htop⟩ := ih hl h
      refine ⟨List.mem_cons_of_mem a hm, hc, he, hx, fun b hb => ?_⟩
      rcases List.mem_cons.mp hb with rfl | hb
      · exact fun _ => hcov
      · exact htop b hb
    rw [highestLoop] at h
    split_ifs at h with hc he hx
    · exact hskip h fun hf => by rw [he] at hf; cases hf
    · cases h
      refine ⟨List.mem_cons_self, not_le.mp hc, Bool.not_eq_true _ ▸ he, hx, fun b hb hlt => ?_⟩
      rcases List.mem_cons.mp hb with rfl | hb
      · exact absurd hlt (lt_irrefl _)
      · exact absurd hlt (ha b hb).not_gt
    · exact hskip h fun _ => Bool.not_eq_true _ ▸ hx

lemma highestLoop_none (hl : l.Pairwise fun a b => b.1 < a.1) (h : highestLoop c x l = none) :
    ∀ a ∈ l, c < a.1 → a.2.isEmpty = false → a.2.covers x = false := by
  induction l with
  | nil => nofun
  | cons a l ih =>
    obtain ⟨ha, hl⟩ := List.pairwise_cons.mp hl
    rw [highestLoop] at h
    intro b hb hlt hne
    split_ifs at h with hc he hx
    · rcases List.mem_cons.mp hb with rfl | hb
      · exact absurd hlt (not_lt.mpr hc)
      · exact absurd (hlt.trans (ha b hb)) (not_lt.mpr hc)
    · rcases List.mem_cons.mp hb with rfl | hb
      · rw [he] at hne
        cases hne
      · exact ih hl h b hb hlt hne
    · rcases List.mem_cons.mp hb with rfl | hb
      · exact Bool.not_eq_true _ ▸ hx
      · exact ih hl h b hb hlt hne

lemma pairwise_tail (r : MemReplica) (H : ℤ) :
    (r.journal.entries.takeWhile fun e => e.1 ≤ H).reverse.Pairwise fun a b => b.1 < a.1 := by
  rw [List.pairwise_reverse]
  exact r.journal.sorted.sublist (List.takeWhile_sublist _)

lemma mem_tail {a : ℤ × MemJournalSlot} :
    a ∈ (r.journal.entries.takeWhile fun e => e.1 ≤ H).reverse ↔
      r.journal.find a.1 = some a.2 ∧ a.1 ≤ H := by
  rw [List.mem_reverse, OrdMap.mem_takeWhile_le, OrdMap.find_eq_some]

lemma highestSlotLe_some (h : r.highestSlotLe x H = some (d, s)) :
    r.journal.find d = some s ∧ r.commitLsn < d ∧ d ≤ H ∧ s.isEmpty = false ∧ s.covers x = true ∧
      ∀ e s', d < e → e ≤ H → r.journal.find e = some s' → s'.isEmpty = false →
        s'.covers x = false := by
  obtain ⟨hm, hc, he, hx, htop⟩ := highestLoop_some (pairwise_tail r H) h
  obtain ⟨hf, hH⟩ := mem_tail.mp hm
  refine ⟨hf, hc, hH, he, hx, fun e s' hlt hle hs' => ?_⟩
  exact htop (e, s') (mem_tail.mpr ⟨hs', hle⟩) hlt

lemma highestSlotLe_none (h : r.highestSlotLe x H = none) {s' : MemJournalSlot} (hc : r.commitLsn < e)
    (hH : e ≤ H) (hs : r.journal.find e = some s') (hne : s'.isEmpty = false) : s'.covers x = false :=
  highestLoop_none (pairwise_tail r H) h (e, s') (mem_tail.mpr ⟨hs, hH⟩) hc hne

end Tail

section Applied

lemma foldl_update_of_ne {α β : Type} [DecidableEq α] (key : ℕ → α) (val : ℕ → β) {y : α} (l : List ℕ)
    (f : α → β) (hl : ∀ i ∈ l, key i ≠ y) :
    l.foldl (fun f i => Function.update f (key i) (val i)) f y = f y := by
  induction l generalizing f with
  | nil => rfl
  | cons i l ih =>
    rw [List.foldl_cons, ih _ fun j hj => hl j (List.mem_cons_of_mem i hj),
      Function.update_of_ne (hl i List.mem_cons_self).symm]

lemma foldl_update_of_mem {α β : Type} [DecidableEq α] (key : ℕ → α) (val : ℕ → β) {y : α} (l : List ℕ)
    (f : α → β) {i : ℕ} (hi : i ∈ l) (hy : key i = y) :
    ∃ j ∈ l, key j = y ∧ l.foldl (fun f i => Function.update f (key i) (val i)) f y = val j := by
  induction l generalizing f i with
  | nil => cases hi
  | cons a l ih =>
    by_cases hl : ∃ j ∈ l, key j = y
    · obtain ⟨j, hj, hjy⟩ := hl
      obtain ⟨k, hk, hky, hval⟩ := ih (Function.update f (key a) (val a)) hj hjy
      exact ⟨k, List.mem_cons_of_mem a hk, hky, hval⟩
    · obtain rfl : i = a := (List.mem_cons.mp hi).resolve_right fun hm => hl ⟨i, hm, hy⟩
      refine ⟨i, List.mem_cons_self, hy, ?_⟩
      rw [List.foldl_cons, foldl_update_of_ne key val l _ fun j hj hjy => hl ⟨j, hj, hjy⟩,
        ← hy, Function.update_self]

lemma applySlot_dlsn {c : IndexCell} (h : (r.applySlot d s).index x = some c) :
    c.dlsn = d ∨ r.index x = some c := by
  by_cases hx : ∃ i ∈ List.range s.len.toNat, s.lba + .ofNat i = x
  · obtain ⟨i, hi, hix⟩ := hx
    obtain ⟨j, -, -, hval⟩ := foldl_update_of_mem (fun i : ℕ => s.lba + UInt64.ofNat i)
      (fun i => some (r.cellOf d s i)) _ r.index hi hix
    left
    rw [← Option.some.inj (hval.symm.trans h)]
    rfl
  · right
    exact (foldl_update_of_ne (fun i : ℕ => s.lba + UInt64.ofNat i) (fun i => some (r.cellOf d s i)) _ r.index
      fun i hi hix => hx ⟨i, hi, hix⟩).symm.trans h

end Applied

end MemReplica

section Verdicts

def Backed (r : MemReplica) : Prop :=
  ∀ x c, r.index x = some c →
    c.dlsn ≤ r.commitLsn ∧ ∃ s, r.journal.find c.dlsn = some s ∧ s.isEmpty = false

lemma Backed.applyNext (h : Backed r) (hs : r.journal.find (r.commitLsn + 1) = some s) :
    Backed (r.applyNext s) := by
  have hold : ∀ x c, r.index x = some c → c.dlsn ≤ r.commitLsn + 1 ∧
      ∃ s, r.journal.find c.dlsn = some s ∧ s.isEmpty = false := by
    intro x c hc
    obtain ⟨hle, hdata⟩ := h x c hc
    exact ⟨by omega, hdata⟩
  rw [MemReplica.applyNext]
  split_ifs with he
  · exact hold
  · intro x c hc
    rcases MemReplica.applySlot_dlsn hc with hd | hc
    · exact ⟨hd.le, s, hd ▸ hs, Bool.not_eq_true _ ▸ he⟩
    · exact hold x c hc

lemma Backed.applyUpTo (h : Backed r) (target : ℤ) : Backed (r.applyUpTo target) :=
  MemReplica.applyUpTo_induction h target fun _ _ h hs => h.applyNext hs

lemma Backed.append (h : Backed r)
    (hs : s.isEmpty = true → ∀ s', r.journal.find d = some s' → s'.isEmpty = false → r.commitLsn < d) :
    Backed (r.append d s) := by
  intro x c hc
  obtain ⟨hle, s', hs', he'⟩ := h x c hc
  refine ⟨hle, ?_⟩
  rw [MemReplica.find_append]
  split_ifs with hd
  · refine ⟨s, rfl, ?_⟩
    by_contra he
    have hlt := hs (Bool.not_eq_false _ ▸ he) s' (hd ▸ hs') he'
    omega
  · exact ⟨s', hs', he'⟩

/-- One operation of a member, as the client or a round asks for it. A verdict overwrites no slot that the
member has applied. -/
inductive Operates (r : MemReplica) : MemReplica → Prop
  | idle : Operates r r
  | write {hdr d addr len bytes l r'} : r.doWrite hdr d addr len bytes = .ok (l, r') → Operates r r'
  | apply (target : ℤ) : Operates r (r.applyUpTo target)
  | mark (d : ℤ) : (∀ s, r.journal.find d = some s → s.isEmpty = false → r.commitLsn < d) →
      Operates r (r.coldMarkEmpty d)
  | install (d : ℤ) (s : MemJournalSlot) : Operates r (r.coldInstallSlot d s)

lemma Backed.operates (h : Backed r) (ho : Operates r r') : Backed r' := by
  cases ho with
  | idle => exact h
  | write hw =>
    obtain ⟨-, -, -, rfl, -⟩ := MemReplica.doWrite_ok hw
    apply Backed.applyUpTo
    exact h.append nofun
  | apply target => exact h.applyUpTo target
  | mark d hd => exact h.append fun _ => hd
  | install d s =>
    rw [MemReplica.coldInstallSlot]
    split_ifs with hs
    · exact h
    · apply h.append
      intro _ s' hs'
      simp [hs'] at hs

lemma HoldsEmpty.append (h : HoldsEmpty r d) (hs : e = d → s.isEmpty = true) :
    HoldsEmpty (r.append e s) d := by
  rw [HoldsEmpty, MemReplica.find_append]
  split_ifs with hd
  · exact ⟨s, rfl, hs hd.symm⟩
  · exact h

lemma HoldsEmpty.applyUpTo (h : HoldsEmpty r d) (target : ℤ) : HoldsEmpty (r.applyUpTo target) d := by
  rwa [HoldsEmpty, MemReplica.applyUpTo_journal]

lemma HoldsEmpty.operates (h : HoldsEmpty r d) (ho : Operates r r') : HoldsEmpty r' d := by
  have ⟨s, hs, he⟩ := h
  cases ho with
  | idle => exact h
  | write hw =>
    obtain ⟨-, -, hno, rfl, -⟩ := MemReplica.doWrite_ok hw
    apply HoldsEmpty.applyUpTo
    apply h.append
    rintro rfl
    rw [hno s hs] at he
    cases he
  | apply target => exact h.applyUpTo target
  | mark e => exact h.append fun _ => rfl
  | install e s' =>
    rw [MemReplica.coldInstallSlot]
    split_ifs with hin
    · exact h
    · apply h.append
      rintro rfl
      simp [hs] at hin

lemma MemReplica.dataPage_src (off : ℕ) : (r.dataPage d bytes off).src = some d := by
  rw [dataPage]
  split_ifs <;> rfl

lemma HoldsEmpty.readBlock_src (h : HoldsEmpty r d) (hb : Backed r) (H : ℤ) (x : UInt64) :
    (r.readBlock H x).src ≠ some d := by
  obtain ⟨s, hs, hem⟩ := h
  have hno : ∀ s', r.journal.find d = some s' → s'.isEmpty ≠ false := by
    intro s' hs' he
    obtain rfl : s = s' := Option.some.inj (hs.symm.trans hs')
    rw [hem] at he
    cases he
  rw [MemReplica.readBlock]
  split
  case h_1 e s' htop =>
    obtain ⟨hf, -, -, he, -⟩ := MemReplica.highestSlotLe_some htop
    have hne : some e ≠ some d := by
      rintro ⟨⟩
      exact hno s' hf he
    split_ifs
    · exact hne
    · rwa [MemReplica.dataPage_src]
  case h_2 =>
    rw [MemReplica.indexBlock]
    split
    case h_1 c hc =>
      obtain ⟨-, s', hf, he⟩ := hb x c hc
      rw [MemReplica.dataPage_src]
      rintro ⟨⟩
      exact hno s' hf he
    case h_2 => nofun

lemma HoldsEmpty.doRead {res : ReadResult} {destSize : UInt64} (h : HoldsEmpty r d) (hb : Backed r)
    (hr : r.doRead hdr H addr len destSize = .ok (res, r')) : ∀ b ∈ res.blocks, b.src ≠ some d := by
  obtain ⟨-, -, rfl, rfl⟩ := MemReplica.doRead_ok hr
  intro b hmem
  obtain ⟨x, -, rfl⟩ := List.mem_map.mp hmem
  exact (h.applyUpTo _).readBlock_src (hb.applyUpTo _) H x

end Verdicts

end CraftClient.Replica
