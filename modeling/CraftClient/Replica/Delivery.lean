import CraftClient.Replica.Replay

/-! Writes may reach a replica in any order and more than once: what it holds depends on their set only. -/

namespace CraftClient.Replica

open LastWriter

section Model

def ReplicaAct.IsIo : ReplicaAct → Prop
  | .write .. | .read .. | .keepAlive .. => True
  | _ => False

def MemReplica.deliver (r : MemReplica) (as : List ReplicaAct) : MemReplica := as.foldl MemReplica.perform r

def Delivers (term : UInt64) (as : List ReplicaAct) (d : ℤ) (c : WriteContent) : Prop :=
  ∃ hdr, .write hdr d c.addr c.len c.bytes ∈ as ∧ hdr.term = term

def MemReplica.slotOf (r : MemReplica) (c : WriteContent) : MemJournalSlot :=
  r.writeSlot ⟨r.term, -1, -1, 0⟩ c.addr c.len c.bytes

/-- The requests of one client after its login: one range and payload for each dLSN, also where the replica holds a
slot that is still to be applied. -/
structure Consistent (r₀ : MemReplica) (as : List ReplicaAct) : Prop where
  io : ∀ a ∈ as, a.IsIo
  one : ∀ d c c', Delivers r₀.term as d c → Delivers r₀.term as d c' → c = c'
  held : ∀ d c s, Delivers r₀.term as d c → r₀.commitLsn < d → r₀.journal.find d = some s → s.isEmpty = false →
    s = { r₀.slotOf c with term := s.term }

def MemJournalSlot.EndsBelow (s : MemJournalSlot) : Prop := s.lba.toNat + s.len.toNat < 2 ^ 64

instance (s : MemJournalSlot) : Decidable s.EndsBelow := inferInstanceAs (Decidable (_ < _))

structure EndsBelow (r₀ : MemReplica) (as : List ReplicaAct) : Prop where
  held : ∀ d s, r₀.commitLsn < d → r₀.journal.find d = some s → s.isEmpty = false → s.EndsBelow
  written : ∀ d c, Delivers r₀.term as d c → (r₀.slotOf c).EndsBelow

def MemReplica.readBack (r : MemReplica) (hdr : ClientHdr) (H : ℤ) (addr len : UInt64) (dest : SgList) :
    Except ErrorCond (List (List UInt8) × List IoExtent × SgList) :=
  (r.doReadInto hdr H addr len dest).map fun (res, dest', _) => (res.blocks.map Block.page, res.extents, dest')

structure SameOutcome (r r' : MemReplica) : Prop where
  journal : r.journal = r'.journal
  reads : ∀ hdr H addr len dest, r.commitLsn ≤ H → r'.commitLsn ≤ H →
    r.readBack hdr H addr len dest = r'.readBack hdr H addr len dest
  caughtUp : ∀ hdr, hdr.term = r.term → r.commitLsn ≤ hdr.commitLsn → r'.commitLsn ≤ hdr.commitLsn →
    (r.perform (.keepAlive hdr)).commitLsn = (r'.perform (.keepAlive hdr)).commitLsn ∧
      (r.perform (.keepAlive hdr)).index = (r'.perform (.keepAlive hdr)).index

end Model

section Run

variable {r₀ r : MemReplica} {as : List ReplicaAct} {a : ReplicaAct} {d : ℤ} {c c' : WriteContent} {s : MemJournalSlot}

lemma Delivers.append_left {term : UInt64} (h : Delivers term as d c) : Delivers term (as ++ [a]) d c := by
  obtain ⟨hdr, hmem, ht⟩ := h
  exact ⟨hdr, List.mem_append_left _ hmem, ht⟩

lemma Consistent.of_append (h : Consistent r₀ (as ++ [a])) : Consistent r₀ as where
  io b hb := h.io b (List.mem_append_left _ hb)
  one d c c' hc hc' := h.one d c c' hc.append_left hc'.append_left
  held d c s hc := h.held d c s hc.append_left

lemma EndsBelow.of_append (h : EndsBelow r₀ (as ++ [a])) : EndsBelow r₀ as where
  held := h.held
  written d c hc := h.written d c hc.append_left

structure Delivered (r₀ : MemReplica) (as : List ReplicaAct) (r : MemReplica) : Prop where
  pageSize : r.pageSize = r₀.pageSize
  term : r.term = r₀.term
  follows : Follows r₀.commitLsn r₀.index r
  taken : ∀ d c, Delivers r₀.term as d c → r₀.Accepts d c → r.journal.find d = some (r₀.slotOf c)
  kept : ∀ d, (∀ c, Delivers r₀.term as d c → ¬ r₀.Accepts d c) → r.journal.find d = r₀.journal.find d

namespace Delivered

lemma accepts_iff (h : Delivered r₀ as r) : r.Accepts d c ↔ r₀.Accepts d c := by
  have hmis : r.misaligned c.addr c.len = r₀.misaligned c.addr c.len := by
    simp only [MemReplica.misaligned, MemReplica.blockSize, h.pageSize]
  have hempty : (∀ s, r.journal.find d = some s → s.isEmpty = false) ↔
      ∀ s, r₀.journal.find d = some s → s.isEmpty = false := by
    by_cases ht : ∃ c, Delivers r₀.term as d c ∧ r₀.Accepts d c
    · obtain ⟨c, hc, ha⟩ := ht
      rw [h.taken d c hc ha]
      exact ⟨fun _ => ha.2.2, fun _ s hs => by cases hs; rfl⟩
    · rw [h.kept d fun c hc ha => ht ⟨c, hc, ha⟩]
  simp only [MemReplica.Accepts, hmis, hempty]

lemma copy (h : Delivered r₀ as r) (hcons : Consistent r₀ (as ++ [a])) (hc : Delivers r₀.term (as ++ [a]) d c)
    (hacc : r₀.Accepts d c) (hd : r₀.commitLsn < d) (hs : r.journal.find d = some s) :
    s = { r₀.slotOf c with term := s.term } := by
  by_cases ht : ∃ c, Delivers r₀.term as d c ∧ r₀.Accepts d c
  · obtain ⟨c', hc', ha'⟩ := ht
    obtain rfl := hcons.one d c c' hc hc'.append_left
    rw [h.taken d c hc' ha'] at hs
    cases hs
    rfl
  · rw [h.kept d fun c hc ha => ht ⟨c, hc, ha⟩] at hs
    exact hcons.held d c s hc hd hs (hacc.2.2 s hs)

lemma applyUpTo (h : Delivered r₀ as r) (target : ℤ) : Delivered r₀ as (r.applyUpTo target) := by
  have ha := MemReplica.applies_applyUpTo r target
  refine ⟨ha.pageSize.trans h.pageSize, ha.term.trans h.term, h.follows.applyUpTo target, ?_, ?_⟩
  · rw [ha.journal]
    exact h.taken
  · rw [ha.journal]
    exact h.kept

lemma skip (h : Delivered r₀ as r) (hnot : ∀ d c, Delivers r₀.term [a] d c → ¬ r₀.Accepts d c) :
    Delivered r₀ (as ++ [a]) r := by
  refine ⟨h.pageSize, h.term, h.follows, ?_, ?_⟩
  · rintro d c ⟨hdr, hmem, ht⟩ hacc
    rcases List.mem_append.mp hmem with hmem | hmem
    · exact h.taken d c ⟨hdr, hmem, ht⟩ hacc
    · exact absurd hacc (hnot d c ⟨hdr, hmem, ht⟩)
  · exact fun d hd => h.kept d fun c hc => hd c hc.append_left

lemma write {hdr : ClientHdr} {bytes : Option (List UInt8)} {addr len : UInt64} (h : Delivered r₀ as r)
    (hcons : Consistent r₀ (as ++ [.write hdr d addr len bytes]))
    (hend : EndsBelow r₀ (as ++ [.write hdr d addr len bytes])) (ht : hdr.term = r₀.term)
    (hacc : r₀.Accepts d ⟨addr, len, bytes⟩) :
    Delivered r₀ (as ++ [.write hdr d addr len bytes]) (r.append d (r.writeSlot hdr addr len bytes)) := by
  have hslot : r.writeSlot hdr addr len bytes = r₀.slotOf ⟨addr, len, bytes⟩ := by
    simp only [MemReplica.writeSlot, MemReplica.slotOf, MemReplica.blockSize, h.pageSize, ht]
  have hnew : Delivers r₀.term (as ++ [.write hdr d addr len bytes]) d ⟨addr, len, bytes⟩ :=
    ⟨hdr, List.mem_append_right _ List.mem_cons_self, ht⟩
  have hfind : ∀ e, (r.append d (r.writeSlot hdr addr len bytes)).journal.find e =
      if e = d then some (r₀.slotOf ⟨addr, len, bytes⟩) else r.journal.find e :=
    fun e => hslot ▸ MemReplica.find_append ..
  refine ⟨h.pageSize, h.term, ?_, ?_, ?_⟩
  · apply h.follows.rejournal
    · rfl
    · rfl
    · intro e s hL hs he
      rw [hfind] at hs
      split_ifs at hs
      · cases hs
        exact hend.written d _ hnew
      · exact h.follows.end_lt e s hL hs he
    · intro e h₁ h₂
      rw [hfind]
      split_ifs
      · rfl
      · exact h.follows.present e h₁ h₂
    · intro e h₁ h₂ x
      rcases eq_or_ne e d with rfl | hne
      · obtain ⟨s, hs⟩ := Option.isSome_iff_exists.mp (h.follows.present e h₁ h₂)
        have hcopy := h.copy hcons hnew hacc h₁ hs
        simp only [MemReplica.written, hfind, if_true, hs, Option.bind_some]
        rw [hcopy]
        rfl
      · simp only [MemReplica.written, hfind, if_neg hne]
        rfl
  · rintro e c ⟨hdr', hmem, ht'⟩ hacc'
    rw [hfind]
    split_ifs with hed
    · rw [hcons.one e c ⟨addr, len, bytes⟩ ⟨hdr', hmem, ht'⟩ (hed ▸ hnew)]
    · rcases List.mem_append.mp hmem with hmem | hmem
      · exact h.taken e c ⟨hdr', hmem, ht'⟩ hacc'
      · cases List.mem_singleton.mp hmem
        exact absurd rfl hed
  · intro e he
    rw [hfind, if_neg]
    · exact h.kept e fun c hc => he c hc.append_left
    · rintro rfl
      exact he _ hnew hacc

lemma perform (h : Delivered r₀ as r) (hcons : Consistent r₀ (as ++ [a])) (hend : EndsBelow r₀ (as ++ [a])) :
    Delivered r₀ (as ++ [a]) (r.perform a) := by
  have hio := hcons.io a (List.mem_append_right _ List.mem_cons_self)
  have hnone : (∀ hdr d addr len bytes, a ≠ .write hdr d addr len bytes) →
      ∀ d c, Delivers r₀.term [a] d c → ¬ r₀.Accepts d c := by
    rintro hne d c ⟨hdr, hmem, -⟩
    exact absurd (List.mem_singleton.mp hmem).symm (hne hdr d c.addr c.len c.bytes)
  cases a with
  | write hdr d addr len bytes =>
    rw [MemReplica.perform]
    by_cases hacc : hdr.term = r.term ∧ r.Accepts d ⟨addr, len, bytes⟩
    · rw [MemReplica.after_doWrite hacc]
      exact (h.write hcons hend (hacc.1.trans h.term) (h.accepts_iff.mp hacc.2)).applyUpTo _
    · rw [MemReplica.after_doWrite_of_not hacc]
      apply h.skip
      rintro e c ⟨hdr', hmem, ht⟩ hc
      cases List.mem_singleton.mp hmem
      exact hacc ⟨ht.trans h.term.symm, h.accepts_iff.mpr hc⟩
  | read hdr H addr len destSize =>
    have hsame := h.skip (hnone (by rintro _ _ _ _ _ ⟨⟩))
    rw [MemReplica.perform]
    rcases r.after_doRead hdr H addr len destSize with hr | hr
    · rw [hr]
      exact hsame
    · rw [hr]
      exact hsame.applyUpTo _
  | keepAlive hdr =>
    have hsame := h.skip (hnone (by rintro _ _ _ _ _ ⟨⟩))
    rw [MemReplica.perform, MemReplica.after_doKeepAlive]
    split_ifs
    · exact hsame.applyUpTo _
    · exact hsame
  | resolveLocal hdr upto => exact hio.elim
  | install d s => exact hio.elim
  | markEmpty d => exact hio.elim

lemma deliver (hcons : Consistent r₀ as) (hend : EndsBelow r₀ as) : Delivered r₀ as (r₀.deliver as) := by
  induction as using List.reverseRecOn with
  | nil =>
    refine ⟨rfl, rfl, .self hend.held, ?_, fun _ _ => rfl⟩
    rintro d c ⟨hdr, hmem, -⟩
    cases hmem
  | append_singleton as a ih =>
    rw [MemReplica.deliver, List.foldl_append]
    exact (ih hcons.of_append hend.of_append).perform hcons hend

end Delivered

end Run

section Outcome

variable {L : ℤ} {base : UInt64 → Option IndexCell} {r r' : MemReplica}

lemma MemReplica.written_congr (hj : r.journal = r'.journal) (hp : r.pageSize = r'.pageSize) (x : UInt64) :
    r.written x = r'.written x := by
  funext d
  simp only [written, cellOf, hj, hp]

lemma MemReplica.cellBlock_congr (hp : r.pageSize = r'.pageSize) : r.cellBlock = r'.cellBlock := by
  cases r
  cases r'
  cases hp
  rfl

namespace Follows

lemma commit_le (h : Follows L base r) (h' : Follows L base r') (hj : r.journal = r'.journal) {target : ℤ}
    (hle : r.commitLsn ≤ target) : (r.applyUpTo target).commitLsn ≤ (r'.applyUpTo target).commitLsn := by
  have hmax := r.applyUpTo_commit_le target
  rw [max_eq_right hle] at hmax
  apply MemReplica.le_applyUpTo hmax
  intro d hd hle'
  have hsome := (h.applyUpTo target).present d (h'.le_commit.trans_lt hd) hle'
  rwa [MemReplica.applyUpTo_journal, hj] at hsome

lemma commit_eq (h : Follows L base r) (h' : Follows L base r') (hj : r.journal = r'.journal) {target : ℤ}
    (hle : r.commitLsn ≤ target) (hle' : r'.commitLsn ≤ target) :
    (r.applyUpTo target).commitLsn = (r'.applyUpTo target).commitLsn :=
  (h.commit_le h' hj hle).antisymm (h'.commit_le h hj.symm hle')

lemma index_eq (h : Follows L base r) (h' : Follows L base r') (hj : r.journal = r'.journal)
    (hp : r.pageSize = r'.pageSize) (hc : r.commitLsn = r'.commitLsn) : r.index = r'.index := by
  funext x
  have hx := h.index x
  rw [MemReplica.ShowsAt, MemReplica.written_congr hj hp, hc] at hx
  exact hx.unique (h'.index x)

lemma readRange_eq (h : Follows L base r) (h' : Follows L base r') (hj : r.journal = r'.journal)
    (hp : r.pageSize = r'.pageSize) {H : ℤ} (hH : max H r.commitLsn = max H r'.commitLsn) (addr len : UInt64) :
    r.readRange H addr len = r'.readRange H addr len := by
  have hblock : r.readBlock H = r'.readBlock H := by
    funext x
    have hx := h.readCell H x
    rw [MemReplica.ShowsAt, MemReplica.written_congr hj hp, hH] at hx
    have hcell : r.readCell H x = r'.readCell H x := hx.unique (h'.readCell H x)
    rw [MemReplica.readBlock_eq, MemReplica.readBlock_eq, hcell, MemReplica.cellBlock_congr hp]
  simp only [MemReplica.readRange, MemReplica.blockSize, hblock, hp]

lemma horizon_eq (h : Follows L base r) (h' : Follows L base r') (hj : r.journal = r'.journal) {H target : ℤ}
    (hH : r.commitLsn ≤ H) (hH' : r'.commitLsn ≤ H) :
    max H (r.applyUpTo target).commitLsn = max H (r'.applyUpTo target).commitLsn := by
  rcases le_or_gt target H with hle | hlt
  · have h₁ := r.applyUpTo_commit_le target
    have h₂ := r'.applyUpTo_commit_le target
    omega
  · rw [h.commit_eq h' hj (by omega) (by omega)]

end Follows

lemma sameOutcome (h : Follows L base r) (h' : Follows L base r') (hj : r.journal = r'.journal)
    (hp : r.pageSize = r'.pageSize) (ht : r.term = r'.term) : SameOutcome r r' := by
  refine ⟨hj, ?_, ?_⟩
  · intro hdr H addr len dest hH hH'
    have ha := MemReplica.applies_applyUpTo r hdr.commitLsn
    have ha' := MemReplica.applies_applyUpTo r' hdr.commitLsn
    have hj' : (r.applyUpTo hdr.commitLsn).journal = (r'.applyUpTo hdr.commitLsn).journal := by
      rw [ha.journal, ha'.journal, hj]
    have hp' : (r.applyUpTo hdr.commitLsn).pageSize = (r'.applyUpTo hdr.commitLsn).pageSize := by
      rw [ha.pageSize, ha'.pageSize, hp]
    have hrange := (h.applyUpTo hdr.commitLsn).readRange_eq (h'.applyUpTo hdr.commitLsn) hj' hp'
      (h.horizon_eq h' hj hH hH') addr len
    have hmis : r.misaligned addr len = r'.misaligned addr len := by
      simp only [MemReplica.misaligned, MemReplica.blockSize, hp]
    simp only [MemReplica.readBack, MemReplica.doReadInto, MemReplica.doRead, hmis, ht, hrange]
    split_ifs <;> rfl
  · intro hdr hterm hle hle'
    simp only [MemReplica.perform, MemReplica.after_doKeepAlive, ← ht, if_pos hterm]
    have ha := MemReplica.applies_applyUpTo r hdr.commitLsn
    have ha' := MemReplica.applies_applyUpTo r' hdr.commitLsn
    have hc := h.commit_eq h' hj hle hle'
    refine ⟨hc, (h.applyUpTo _).index_eq (h'.applyUpTo _) ?_ ?_ hc⟩
    · rw [ha.journal, ha'.journal, hj]
    · rw [ha.pageSize, ha'.pageSize, hp]

end Outcome

section Order

variable {r₀ : MemReplica} {as as' : List ReplicaAct}

lemma Delivered.journal_eq {r r' : MemReplica} (h : Delivered r₀ as r) (h' : Delivered r₀ as' r')
    (hsame : ∀ d c, Delivers r₀.term as d c ↔ Delivers r₀.term as' d c) : r.journal = r'.journal := by
  apply OrdMap.ext_find
  intro d
  by_cases ht : ∃ c, Delivers r₀.term as d c ∧ r₀.Accepts d c
  · obtain ⟨c, hc, ha⟩ := ht
    rw [h.taken d c hc ha, h'.taken d c ((hsame d c).mp hc) ha]
  · rw [h.kept d fun c hc ha => ht ⟨c, hc, ha⟩, h'.kept d fun c hc ha => ht ⟨c, (hsame d c).mpr hc, ha⟩]

theorem delivery_order_irrelevant (h : Consistent r₀ as) (hio : ∀ a ∈ as', a.IsIo)
    (hsame : ∀ d c, Delivers r₀.term as d c ↔ Delivers r₀.term as' d c) (hend : EndsBelow r₀ as) :
    SameOutcome (r₀.deliver as) (r₀.deliver as') := by
  have h' : Consistent r₀ as' :=
    ⟨hio, fun d c c' hc hc' => h.one d c c' ((hsame d c).mpr hc) ((hsame d c').mpr hc'),
      fun d c s hc => h.held d c s ((hsame d c).mpr hc)⟩
  have hend' : EndsBelow r₀ as' := ⟨hend.held, fun d c hc => hend.written d c ((hsame d c).mpr hc)⟩
  have hr := Delivered.deliver h hend
  have hr' := Delivered.deliver h' hend'
  exact sameOutcome hr.follows hr'.follows (hr.journal_eq hr' hsame) (hr.pageSize.trans hr'.pageSize.symm)
    (hr.term.trans hr'.term.symm)

theorem delivery_order_swapped : SameOutcome
    ((sessionStart 2 7 1).deliver [.write ⟨1, -1, -1, 7⟩ 0 0 2 (some [1, 2]), .write ⟨1, 0, -1, 7⟩ 1 0 4 none])
    ((sessionStart 2 7 1).deliver [.write ⟨1, -1, -1, 7⟩ 1 0 4 none, .write ⟨1, 0, -1, 7⟩ 0 0 2 (some [1, 2]),
      .keepAlive ⟨1, 1, 1, 7⟩, .write ⟨1, 1, 1, 7⟩ 0 0 2 (some [1, 2])]) := by
  have hmem : ∀ d c, Delivers 1
      [.write ⟨1, -1, -1, 7⟩ 0 0 2 (some [1, 2]), .write ⟨1, 0, -1, 7⟩ 1 0 4 none] d c ↔
        d = 0 ∧ c = ⟨0, 2, some [1, 2]⟩ ∨ d = 1 ∧ c = ⟨0, 4, none⟩ := by
    rintro d ⟨addr, len, bytes⟩
    simp only [Delivers, List.mem_cons, ReplicaAct.write.injEq, List.not_mem_nil, or_false, WriteContent.mk.injEq]
    constructor
    · rintro ⟨hdr, ⟨-, rfl, rfl, rfl, rfl⟩ | ⟨-, rfl, rfl, rfl, rfl⟩, -⟩ <;> simp
    · rintro (⟨rfl, rfl, rfl, rfl⟩ | ⟨rfl, rfl, rfl, rfl⟩) <;> simp
  have hmem' : ∀ d c, Delivers 1 [.write ⟨1, -1, -1, 7⟩ 1 0 4 none, .write ⟨1, 0, -1, 7⟩ 0 0 2 (some [1, 2]),
      .keepAlive ⟨1, 1, 1, 7⟩, .write ⟨1, 1, 1, 7⟩ 0 0 2 (some [1, 2])] d c ↔
        d = 0 ∧ c = ⟨0, 2, some [1, 2]⟩ ∨ d = 1 ∧ c = ⟨0, 4, none⟩ := by
    rintro d ⟨addr, len, bytes⟩
    simp only [Delivers, List.mem_cons, ReplicaAct.write.injEq, List.not_mem_nil, or_false, WriteContent.mk.injEq,
      reduceCtorEq, false_or]
    constructor
    · rintro ⟨hdr, ⟨-, rfl, rfl, rfl, rfl⟩ | ⟨-, rfl, rfl, rfl, rfl⟩ | ⟨-, rfl, rfl, rfl, rfl⟩, -⟩ <;> simp
    · rintro (⟨rfl, rfl, rfl, rfl⟩ | ⟨rfl, rfl, rfl, rfl⟩) <;> simp
  refine delivery_order_irrelevant ⟨?_, ?_, fun _ _ _ _ _ => nofun⟩ ?_ ?_ ⟨fun _ _ _ => nofun, ?_⟩
  · simp [ReplicaAct.IsIo]
  · intro d c c' hc hc'
    rcases (hmem d c).mp hc with ⟨rfl, rfl⟩ | ⟨rfl, rfl⟩ <;>
      rcases (hmem _ c').mp hc' with ⟨h, rfl⟩ | ⟨h, rfl⟩
    · rfl
    · cases h
    · cases h
    · rfl
  · simp [ReplicaAct.IsIo]
  · exact fun d c => (hmem d c).trans (hmem' d c).symm
  · intro d c hc
    rcases (hmem d c).mp hc with ⟨-, rfl⟩ | ⟨-, rfl⟩ <;> decide

theorem unapplied_write_lost :
    let write : ReplicaAct := .write ⟨1, -1, -1, 7⟩ 0 (2 ^ 64 - 1) 1 (some [5])
    let r := (sessionStart 1 7 1).deliver [write, .keepAlive ⟨1, 0, -1, 7⟩]
    let r' := (sessionStart 1 7 1).deliver [write]
    r.commitLsn ≤ 0 ∧ r'.commitLsn ≤ 0 ∧
      (r.readBack ⟨1, -1, -1, 7⟩ 0 (2 ^ 64 - 1) 1 ⟨1, [[9]]⟩).toOption =
        some ([[5]], [⟨2 ^ 64 - 1, 1, false⟩], ⟨1, [[5]]⟩) ∧
      (r'.readBack ⟨1, -1, -1, 7⟩ 0 (2 ^ 64 - 1) 1 ⟨1, [[9]]⟩).toOption =
        some ([[0]], [⟨2 ^ 64 - 1, 1, true⟩], ⟨1, [[0]]⟩) := by
  decide +kernel

end Order

end CraftClient.Replica
