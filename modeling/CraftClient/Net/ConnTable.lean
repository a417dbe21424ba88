import CraftClient.Lib.Runs
import Mathlib.Tactic

/-! The table of a proxy's ring connections, read without a lock and appended to under one. -/

namespace CraftClient.Net

open Runs

def kMaxQueues : ℕ := 64

structure QueueSlot (ρ : Type) where
  ring : Option ρ
  conn : Option ℕ
  deriving DecidableEq

inductive ConnForPc (ρ : Type)
  | idle
  | load (q : ρ)
  | scan (q : ρ) (n i : ℕ)
  | lock (q : ρ) (n : ℕ)
  | reload (q : ρ) (n : ℕ)
  | rescan (q : ρ) (m i : ℕ)
  | setRing (q : ρ) (m : ℕ)
  | setConn (q : ρ) (m : ℕ)
  | publish (q : ρ) (m : ℕ)
  | unlock (q : ρ) (conn : Option ℕ)
  deriving DecidableEq

/-- The table, the callers `ι`, the number of connections made so far, and what calls have returned. -/
structure ConnTable (ι ρ : Type) where
  slots : ℕ → QueueSlot ρ
  nSlots : ℕ
  holder : Option ι
  calls : ι → ConnForPc ρ
  made : ℕ
  returned : List (Option ρ × Option ℕ)

inductive ConnForAct (ι ρ : Type)
  | call (i : ι) (q : Option ρ)
  | go (i : ι)

variable {ι ρ : Type}

def ConnTable.empty : ConnTable ι ρ := ⟨fun _ => ⟨none, none⟩, 0, none, fun _ => .idle, 0, []⟩

section Step

variable [DecidableEq ι] [DecidableEq ρ]

def ConnTable.goTo (s : ConnTable ι ρ) (i : ι) (pc : ConnForPc ρ) : ConnTable ι ρ :=
  { s with calls := Function.update s.calls i pc }

def ConnTable.ret (s : ConnTable ι ρ) (i : ι) (q : Option ρ) (conn : Option ℕ) : ConnTable ι ρ :=
  { s.goTo i .idle with returned := s.returned ++ [(q, conn)] }

def ConnTable.setSlot (s : ConnTable ι ρ) (m : ℕ) (slot : QueueSlot ρ) : ConnTable ι ρ :=
  { s with slots := Function.update s.slots m slot }

def connForStep (s : ConnTable ι ρ) : ConnForAct ι ρ → Option (ConnTable ι ρ)
  | .call i q =>
    match s.calls i, q with
    | .idle, none => some (s.ret i none none)
    | .idle, some q => some (s.goTo i (.load q))
    | _, _ => none
  | .go i =>
    match s.calls i with
    | .idle => none
    | .load q => some (s.goTo i (.scan q s.nSlots 0))
    | .scan q n k =>
      if k < n then
        if (s.slots k).ring = some q then some (s.ret i (some q) (s.slots k).conn)
        else some (s.goTo i (.scan q n (k + 1)))
      -- the table is full for good, and the miss with it
      else if n = kMaxQueues then some (s.ret i (some q) none)
      else some (s.goTo i (.lock q n))
    | .lock q n => if s.holder = none then some { s.goTo i (.reload q n) with holder := some i } else none
    | .reload q n => some (s.goTo i (.rescan q s.nSlots n))
    | .rescan q m k =>
      if k < m then
        if (s.slots k).ring = some q then some (s.goTo i (.unlock q (s.slots k).conn))
        else some (s.goTo i (.rescan q m (k + 1)))
      else if m = kMaxQueues then some (s.goTo i (.unlock q none))
      else some (s.goTo i (.setRing q m))
    | .setRing q m => some ((s.setSlot m { s.slots m with ring := some q }).goTo i (.setConn q m))
    | .setConn q m =>
      some { (s.setSlot m { s.slots m with conn := some s.made }).goTo i (.publish q m) with made := s.made + 1 }
    | .publish q m => some { s.goTo i (.unlock q (s.slots m).conn) with nSlots := m + 1 }
    | .unlock q conn => some { s.ret i (some q) conn with holder := none }

end Step

def Absent (s : ConnTable ι ρ) (q : ρ) (k : ℕ) : Prop := ∀ j < k, j < s.nSlots → (s.slots j).ring ≠ some q

def Answer (s : ConnTable ι ρ) : Option ρ → Option ℕ → Prop
  | none, conn => conn = none
  | some q, some conn => ∃ j < s.nSlots, s.slots j = ⟨some q, some conn⟩
  | some q, none => s.nSlots = kMaxQueues ∧ Absent s q kMaxQueues

def ConnForOk (s : ConnTable ι ρ) (i : ι) : ConnForPc ρ → Prop
  | .idle | .load _ => True
  | .scan q n k => k ≤ n ∧ n ≤ s.nSlots ∧ Absent s q k
  | .lock q n => n ≤ s.nSlots ∧ Absent s q n
  | .reload q n => s.holder = some i ∧ n ≤ s.nSlots ∧ Absent s q n
  | .rescan q m k => s.holder = some i ∧ m = s.nSlots ∧ k ≤ m ∧ Absent s q k
  | .setRing q m => s.holder = some i ∧ m = s.nSlots ∧ m < kMaxQueues ∧ Absent s q m
  | .setConn q m => s.holder = some i ∧ m = s.nSlots ∧ m < kMaxQueues ∧ Absent s q m ∧ (s.slots m).ring = some q
  | .publish q m => s.holder = some i ∧ m = s.nSlots ∧ m < kMaxQueues ∧ Absent s q m ∧
      ∃ conn, s.slots m = ⟨some q, some conn⟩ ∧ conn < s.made ∧ ∀ j < m, (s.slots j).conn ≠ some conn
  | .unlock q conn => s.holder = some i ∧ Answer s (some q) conn

structure TableInv (s : ConnTable ι ρ) : Prop where
  bound : s.nSlots ≤ kMaxQueues
  built : ∀ j < s.nSlots, ∃ q conn, s.slots j = ⟨some q, some conn⟩ ∧ conn < s.made
  rings : Set.InjOn (fun j => (s.slots j).ring) (Set.Iio s.nSlots)
  conns : Set.InjOn (fun j => (s.slots j).conn) (Set.Iio s.nSlots)
  calls : ∀ i, ConnForOk s i (s.calls i)
  returned : ∀ q conn, (q, conn) ∈ s.returned → Answer s q conn

lemma tableInv_empty : TableInv (.empty : ConnTable ι ρ) where
  bound := Nat.zero_le _
  built j hj := absurd hj (Nat.not_lt_zero j)
  rings j hj := absurd hj (Nat.not_lt_zero j)
  conns j hj := absurd hj (Nat.not_lt_zero j)
  calls _ := trivial
  returned q conn h := by cases h

section Grow

structure Extends (s t : ConnTable ι ρ) : Prop where
  le : s.nSlots ≤ t.nSlots
  bound : t.nSlots ≤ kMaxQueues
  slots : ∀ j < s.nSlots, t.slots j = s.slots j

variable {s t : ConnTable ι ρ} {q : ρ} {i : ι} {k : ℕ} {pc : ConnForPc ρ} {conn : Option ℕ}

lemma Absent.mono (h : Absent s q k) (ht : Extends s t) (hk : k ≤ s.nSlots) : Absent t q k := by
  intro j hj _
  have hjs := hj.trans_le hk
  rw [ht.slots j hjs]
  exact h j hj hjs

lemma Answer.mono {q : Option ρ} (h : Answer s q conn) (ht : Extends s t) : Answer t q conn := by
  cases q with
  | none => exact h
  | some q =>
    cases conn with
    | some conn =>
      obtain ⟨j, hj, hslot⟩ := h
      exact ⟨j, hj.trans_le ht.le, (ht.slots j hj).trans hslot⟩
    | none =>
      obtain ⟨hfull, habs⟩ := h
      exact ⟨ht.bound.antisymm (hfull ▸ ht.le), habs.mono ht hfull.ge⟩

lemma ConnForOk.mono (h : ConnForOk s i pc) (ht : Extends s t)
    (hold : s.holder = some i → t.holder = some i ∧ t.slots = s.slots ∧ t.nSlots = s.nSlots ∧ s.made ≤ t.made) :
    ConnForOk t i pc := by
  cases pc with
  | idle | load => trivial
  | scan q n k => exact ⟨h.1, h.2.1.trans ht.le, h.2.2.mono ht (h.1.trans h.2.1)⟩
  | lock q n => exact ⟨h.1.trans ht.le, h.2.mono ht h.1⟩
  | reload q n => exact ⟨(hold h.1).1, h.2.1.trans ht.le, h.2.2.mono ht h.2.1⟩
  | rescan q m k =>
    obtain ⟨hh, rfl, hk, habs⟩ := h
    obtain ⟨hh', -, hn, -⟩ := hold hh
    exact ⟨hh', hn.symm, hk, habs.mono ht hk⟩
  | setRing q m =>
    obtain ⟨hh, rfl, hlt, habs⟩ := h
    obtain ⟨hh', -, hn, -⟩ := hold hh
    exact ⟨hh', hn.symm, hlt, habs.mono ht le_rfl⟩
  | setConn q m =>
    obtain ⟨hh, rfl, hlt, habs, hring⟩ := h
    obtain ⟨hh', hslots, hn, -⟩ := hold hh
    exact ⟨hh', hn.symm, hlt, habs.mono ht le_rfl, hslots ▸ hring⟩
  | publish q m =>
    obtain ⟨hh, rfl, hlt, habs, conn, hslot, hmade, hfresh⟩ := h
    obtain ⟨hh', hslots, hn, hle⟩ := hold hh
    exact ⟨hh', hn.symm, hlt, habs.mono ht le_rfl, conn, hslots ▸ hslot, hmade.trans_le hle, hslots ▸ hfresh⟩
  | unlock q conn => exact ⟨(hold h.1).1, h.2.mono ht⟩

lemma TableInv.extends_same (h : TableInv s) (hslots : ∀ j < s.nSlots, t.slots j = s.slots j)
    (hn : t.nSlots = s.nSlots) : Extends s t := ⟨hn.ge, hn ▸ h.bound, hslots⟩

lemma Absent.succ (h : Absent s q k) (hne : (s.slots k).ring ≠ some q) : Absent s q (k + 1) := by
  intro j hj hjn
  rcases Nat.lt_succ_iff_lt_or_eq.mp hj with hj | rfl
  · exact h j hj hjn
  · exact hne

lemma TableInv.answer (h : TableInv s) (hk : k < s.nSlots) (hring : (s.slots k).ring = some q) :
    Answer s (some q) (s.slots k).conn := by
  obtain ⟨q', conn, hslot, -⟩ := h.built k hk
  rw [hslot] at hring ⊢
  cases hring
  exact ⟨k, hk, hslot⟩

end Grow

section Steps

variable {s t : ConnTable ι ρ} {q : ρ} {i : ι} {k m : ℕ} {pc : ConnForPc ρ} {conn : Option ℕ} {a : ConnForAct ι ρ}
  [DecidableEq ι]

lemma TableInv.of_calls (h : TableInv s) (hcalls : t.calls = Function.update s.calls i pc) (hext : Extends s t)
    (hold : ∀ j ≠ i, s.holder = some j →
      t.holder = some j ∧ t.slots = s.slots ∧ t.nSlots = s.nSlots ∧ s.made ≤ t.made)
    (hpc : ConnForOk t i pc) (j : ι) : ConnForOk t j (t.calls j) := by
  rw [hcalls, Function.update_apply]
  split_ifs with hj
  · exact hj ▸ hpc
  · exact (h.calls j).mono hext (hold j hj)

omit [DecidableEq ι] in
lemma TableInv.of_table (h : TableInv s) (hslots : t.slots = s.slots) (hn : t.nSlots = s.nSlots)
    (hmade : t.made = s.made) (hcalls : ∀ j, ConnForOk t j (t.calls j))
    (hret : ∀ q conn, (q, conn) ∈ t.returned → Answer s q conn) : TableInv t where
  bound := hn ▸ h.bound
  built := by
    rw [hn, hslots, hmade]
    exact h.built
  rings := by
    rw [hn, hslots]
    exact h.rings
  conns := by
    rw [hn, hslots]
    exact h.conns
  calls := hcalls
  returned q conn hmem := (hret q conn hmem).mono (h.extends_same (fun j _ => by rw [hslots]) hn)

lemma TableInv.goTo (h : TableInv s) (hpc : ConnForOk s i pc) : TableInv (s.goTo i pc) := by
  have hext : Extends s (s.goTo i pc) := h.extends_same (fun j _ => rfl) rfl
  have hok : ConnForOk (s.goTo i pc) i pc := hpc.mono hext fun hh => ⟨hh, rfl, rfl, le_rfl⟩
  exact h.of_table rfl rfl rfl (h.of_calls rfl hext (fun j _ hh => ⟨hh, rfl, rfl, le_rfl⟩) hok) h.returned

lemma TableInv.ret {q : Option ρ} (h : TableInv s) (hans : Answer s q conn) : TableInv (s.ret i q conn) := by
  have hext : Extends s (s.ret i q conn) := h.extends_same (fun j _ => rfl) rfl
  refine h.of_table rfl rfl rfl
    (h.of_calls rfl hext (fun j _ hh => ⟨hh, rfl, rfl, le_rfl⟩) trivial) fun q' conn' hmem => ?_
  rcases List.mem_append.mp hmem with hmem | hmem
  · exact h.returned q' conn' hmem
  · cases List.mem_singleton.mp hmem
    exact hans

lemma TableInv.lock {n : ℕ} (h : TableInv s) (hfree : s.holder = none) (hn : n ≤ s.nSlots) (habs : Absent s q n) :
    TableInv { s.goTo i (.reload q n) with holder := some i } := by
  have hext : Extends s { s.goTo i (.reload q n) with holder := some i } := h.extends_same (fun j _ => rfl) rfl
  refine h.of_table rfl rfl rfl (h.of_calls rfl hext (fun j _ hh => ?_) ?_) h.returned
  · cases hfree.symm.trans hh
  · exact ⟨rfl, hn, habs.mono hext hn⟩

lemma TableInv.unlock (h : TableInv s) (hh : s.holder = some i) (hans : Answer s (some q) conn) :
    TableInv { s.ret i (some q) conn with holder := none } := by
  have hext : Extends s { s.ret i (some q) conn with holder := none } := h.extends_same (fun j _ => rfl) rfl
  refine h.of_table rfl rfl rfl (h.of_calls rfl hext (fun j hj hj' => ?_) trivial) (h.ret (i := i) hans).returned
  exact absurd (Option.some.inj (hj'.symm.trans hh)) hj

lemma TableInv.write {slot : QueueSlot ρ} {made : ℕ} (h : TableInv s) (hh : s.holder = some i)
    (hmade : s.made ≤ made)
    (hpc : ConnForOk { (s.setSlot s.nSlots slot).goTo i pc with made := made } i pc) :
    TableInv { (s.setSlot s.nSlots slot).goTo i pc with made := made } := by
  have hslots : ∀ j < s.nSlots, Function.update s.slots s.nSlots slot j = s.slots j :=
    fun j hj => Function.update_of_ne hj.ne _ _
  have hext : Extends s { (s.setSlot s.nSlots slot).goTo i pc with made := made } := h.extends_same hslots rfl
  refine ⟨h.bound, fun j hj => ?_, ?_, ?_, ?_, fun q conn hmem => ?_⟩
  · obtain ⟨q, conn, hslot, hlt⟩ := h.built j hj
    exact ⟨q, conn, (hslots j hj).trans hslot, hlt.trans_le hmade⟩
  · exact h.rings.congr fun j hj => congrArg QueueSlot.ring (hslots j hj).symm
  · exact h.conns.congr fun j hj => congrArg QueueSlot.conn (hslots j hj).symm
  · refine h.of_calls rfl hext (fun j hj hj' => ?_) hpc
    exact absurd (Option.some.inj (hj'.symm.trans hh)) hj
  · exact (h.returned q conn hmem).mono hext

lemma injOn_Iio_succ {α : Type} {f : ℕ → α} {n : ℕ} (h : Set.InjOn f (Set.Iio n)) (hn : ∀ j < n, f j ≠ f n) :
    Set.InjOn f (Set.Iio (n + 1)) := by
  rw [← Order.succ_eq_add_one, Order.Iio_succ_eq_insert, Set.injOn_insert Set.self_notMem_Iio]
  refine ⟨h, ?_⟩
  rintro ⟨j, hj, heq⟩
  exact hn j hj heq

lemma TableInv.publish {conn : ℕ} (h : TableInv s) (hh : s.holder = some i) (hlt : s.nSlots < kMaxQueues)
    (habs : Absent s q s.nSlots) (hslot : s.slots s.nSlots = ⟨some q, some conn⟩) (hmade : conn < s.made)
    (hfresh : ∀ j < s.nSlots, (s.slots j).conn ≠ some conn) :
    TableInv { s.goTo i (.unlock q (s.slots s.nSlots).conn) with nSlots := s.nSlots + 1 } := by
  have hext : Extends s { s.goTo i (.unlock q (s.slots s.nSlots).conn) with nSlots := s.nSlots + 1 } :=
    ⟨Nat.le_succ _, hlt, fun j _ => rfl⟩
  refine ⟨hlt, fun j hj => ?_, ?_, ?_, ?_, fun q conn hmem => ?_⟩
  · rcases Nat.lt_succ_iff_lt_or_eq.mp hj with hj | rfl
    · exact h.built j hj
    · exact ⟨q, conn, hslot, hmade⟩
  · exact injOn_Iio_succ h.rings fun j hj heq => habs j hj hj (heq.trans (congrArg QueueSlot.ring hslot))
  · exact injOn_Iio_succ h.conns fun j hj heq => hfresh j hj (heq.trans (congrArg QueueSlot.conn hslot))
  · refine h.of_calls rfl hext (fun j hj hj' => ?_) ⟨hh, ?_⟩
    · exact absurd (Option.some.inj (hj'.symm.trans hh)) hj
    · rw [hslot]
      exact ⟨s.nSlots, Nat.lt_succ_self _, hslot⟩
  · exact (h.returned q conn hmem).mono hext

lemma TableInv.call [DecidableEq ρ] {q : Option ρ} (h : TableInv s) (hs : connForStep s (.call i q) = some t) :
    TableInv t := by
  simp only [connForStep] at hs
  split at hs
  · cases hs
    exact h.ret rfl
  · cases hs
    exact h.goTo trivial
  · cases hs

lemma TableInv.go [DecidableEq ρ] (h : TableInv s) (hs : connForStep s (.go i) = some t) : TableInv t := by
  have hi := h.calls i
  simp only [connForStep] at hs
  generalize s.calls i = pc at hi hs
  cases pc with
  | idle => cases hs
  | load q =>
    cases hs
    exact h.goTo ⟨Nat.zero_le _, le_rfl, fun j hj => absurd hj (Nat.not_lt_zero j)⟩
  | scan q n k =>
    obtain ⟨hk, hn, habs⟩ := hi
    dsimp only at hs
    split_ifs at hs with hlt hring hfull <;> cases hs
    · exact h.ret (h.answer (hlt.trans_le hn) hring)
    · exact h.goTo ⟨hlt, hn, habs.succ hring⟩
    · obtain rfl : k = n := hk.antisymm (not_lt.mp hlt)
      rw [hfull] at hn habs
      exact h.ret ⟨h.bound.antisymm hn, habs⟩
    · obtain rfl : k = n := hk.antisymm (not_lt.mp hlt)
      exact h.goTo ⟨hn, habs⟩
  | lock q n =>
    dsimp only at hs
    split_ifs at hs with hfree
    cases hs
    exact h.lock hfree hi.1 hi.2
  | reload q n =>
    cases hs
    exact h.goTo ⟨hi.1, rfl, hi.2.1, hi.2.2⟩
  | rescan q m k =>
    obtain ⟨hh, rfl, hk, habs⟩ := hi
    dsimp only at hs
    split_ifs at hs with hlt hring hfull <;> cases hs
    · exact h.goTo ⟨hh, h.answer hlt hring⟩
    · exact h.goTo ⟨hh, rfl, hlt, habs.succ hring⟩
    · obtain rfl : k = s.nSlots := hk.antisymm (not_lt.mp hlt)
      exact h.goTo ⟨hh, hfull, hfull ▸ habs⟩
    · obtain rfl : k = s.nSlots := hk.antisymm (not_lt.mp hlt)
      exact h.goTo ⟨hh, rfl, lt_of_le_of_ne h.bound hfull, habs⟩
  | setRing q m =>
    obtain ⟨hh, rfl, hlt, habs⟩ := hi
    cases hs
    refine h.write hh le_rfl ⟨hh, rfl, hlt, fun j hj _ => ?_, ?_⟩
    · simpa [ConnTable.setSlot, ConnTable.goTo, hj.ne] using habs j hj hj
    · simp [ConnTable.setSlot, ConnTable.goTo]
  | setConn q m =>
    obtain ⟨hh, rfl, hlt, habs, hring⟩ := hi
    cases hs
    refine h.write hh (Nat.le_succ _) ⟨hh, rfl, hlt, fun j hj _ => ?_, s.made, ?_, Nat.lt_succ_self _, fun j hj => ?_⟩
    · simpa [ConnTable.setSlot, ConnTable.goTo, hj.ne] using habs j hj hj
    · simp [ConnTable.setSlot, ConnTable.goTo, hring]
    · obtain ⟨q', conn, hslot, hmade⟩ := h.built j hj
      simp [ConnTable.setSlot, ConnTable.goTo, hj.ne, hslot, hmade.ne]
  | publish q m =>
    obtain ⟨hh, rfl, hlt, habs, conn, hslot, hmade, hfresh⟩ := hi
    cases hs
    exact h.publish hh hlt habs hslot hmade hfresh
  | unlock q conn =>
    cases hs
    exact h.unlock hi.1 hi.2

end Steps

variable [DecidableEq ι] [DecidableEq ρ]

theorem conn_for_one_per_ring {s : ConnTable ι ρ} (h : Reach connForStep free (.empty : ConnTable ι ρ) s) :
    s.nSlots ≤ kMaxQueues ∧
      (∀ q q' conn conn', (some q, some conn) ∈ s.returned → (some q', some conn') ∈ s.returned →
        (q = q' ↔ conn = conn')) ∧
      (∀ conn, (none, some conn) ∉ s.returned) ∧
      ∀ q, (some q, none) ∈ s.returned → s.nSlots = kMaxQueues ∧ ∀ conn, (some q, some conn) ∉ s.returned := by
  have hi : TableInv s := by
    refine h.invariant (P := TableInv) tableInv_empty fun s a t hi _ hs => ?_
    cases a with
    | call i q => exact hi.call hs
    | go i => exact hi.go hs
  refine ⟨hi.bound, fun q q' conn conn' hmem hmem' => ?_, fun conn hmem => ?_, fun q hmem => ?_⟩
  · obtain ⟨j, hj, hslot⟩ := hi.returned _ _ hmem
    obtain ⟨j', hj', hslot'⟩ := hi.returned _ _ hmem'
    constructor
    · rintro rfl
      obtain rfl := hi.rings hj hj' (by simp only [hslot, hslot'])
      rw [hslot] at hslot'
      cases hslot'
      rfl
    · rintro rfl
      obtain rfl := hi.conns hj hj' (by simp only [hslot, hslot'])
      rw [hslot] at hslot'
      cases hslot'
      rfl
  · cases hi.returned _ _ hmem
  · obtain ⟨hfull, habs⟩ := hi.returned _ _ hmem
    refine ⟨hfull, fun conn hmem' => ?_⟩
    obtain ⟨j, hj, hslot⟩ := hi.returned _ _ hmem'
    exact habs j (hfull ▸ hj) hj (by rw [hslot])

theorem conn_for_one_per_ring_race : ∃ s : ConnTable (Fin 2) ℕ, Reach connForStep free .empty s ∧
    s.returned = [(some 7, some 0), (some 7, some 0)] ∧ s.nSlots ≤ kMaxQueues ∧
      (∀ q q' conn conn', (some q, some conn) ∈ s.returned → (some q', some conn') ∈ s.returned →
        (q = q' ↔ conn = conn')) ∧
      (∀ conn, (none, some conn) ∉ s.returned) ∧
      ∀ q, (some q, none) ∈ s.returned → s.nSlots = kMaxQueues ∧ ∀ conn, (some q, some conn) ∉ s.returned := by
  obtain ⟨s, hs, hp⟩ := Reach.exists_of_exec connForStep free (.empty : ConnTable (Fin 2) ℕ)
    ([.call 0 (some 7), .call 1 (some 7), .go 0, .go 1, .go 0, .go 1] ++ List.replicate 7 (.go 0) ++
      List.replicate 4 (.go 1))
    (fun s => decide (s.returned = [(some 7, some 0), (some 7, some 0)])) (by decide)
  exact ⟨s, hs, of_decide_eq_true hp, conn_for_one_per_ring hs⟩

end CraftClient.Net
