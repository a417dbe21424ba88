import CraftClient.Lib.Runs
import CraftClient.Raft.Replica

/-! The session term of one `RaftReplica` under the probes of several logins, their timers and committed logins. -/

namespace CraftClient.Raft

open Replica Runs

variable {ι : Type}

inductive ProbePc
  | idle
  | unlocked (ret : LsnPair) (cb : Restore)
  | armed (ret : LsnPair) (id : ℕ)
  | done (ret : LsnPair)

def ProbePc.inProgress : ProbePc → Bool
  | .unlocked _ _ | .armed _ _ => true
  | .idle | .done _ => false

/-- `committed` is the term of the last login applied, or the term at the start. -/
structure Barrier (ι : Type) where
  replica : RaftReplica
  now : ℕ
  probes : ι → ProbePc
  committed : UInt64

namespace Barrier

def start (mem : MemReplica) : Barrier ι := ⟨⟨mem, -1, false, none, .new⟩, 0, fun _ => .idle, mem.term⟩

def term (b : Barrier ι) : UInt64 := b.replica.mem.term

def timers (b : Barrier ι) : ℕ → Option (TimerState Restore) := b.replica.watchdog.timers

def setProbe [DecidableEq ι] (b : Barrier ι) (i : ι) (pc : ProbePc) : Barrier ι :=
  { b with probes := Function.update b.probes i pc }

def setWatchdog (b : Barrier ι) (w : Watchdog Restore) : Barrier ι :=
  { b with replica := { b.replica with watchdog := w } }

def restore (b : Barrier ι) (cb : Restore) : Barrier ι := { b with replica := b.replica.restore cb }

def NoProbe (b : Barrier ι) : Prop := ∀ i, ¬ (b.probes i).inProgress

def Unarmed (b : Barrier ι) : Prop := ∀ id < b.replica.watchdog.nextId, (b.timers id).isNone

end Barrier

inductive BarrierAct (ι : Type)
  | probe (i : ι) (term : UInt64) (isLogin : Bool)
  | arm (i : ι)
  | record (i : ι)
  | tick (seconds : ℕ)
  | expire (entry : HeapEntry)
  | callback
  | relock
  | internalLogin (m : InternalLoginMsg)

def barrierStep [DecidableEq ι] (b : Barrier ι) : BarrierAct ι → Option (Barrier ι)
  | .probe i term isLogin =>
    if (b.probes i).inProgress then none
    else
      let ret := b.replica.mem.peekLsns
      if isLogin then
        some { b.setProbe i (.unlocked ret ⟨b.term, term⟩) with replica := b.replica.quiesce term }
      else some (b.setProbe i (.done ret))
  | .arm i =>
    match b.probes i with
    | .unlocked ret cb =>
      let (id, replica) := b.replica.armBarrier b.now cb
      some { b.setProbe i (.armed ret id) with replica := replica }
    | _ => none
  | .record i =>
    match b.probes i with
    | .armed ret id =>
      some { b.setProbe i (.done ret) with replica := { b.replica with pendingLoginTimer := some id } }
    | _ => none
  | .tick seconds => some { b with now := b.now + seconds }
  | .expire entry => (b.replica.watchdog.pop b.now entry).map b.setWatchdog
  | .callback => b.replica.watchdog.call.map fun (cb, w) => (b.setWatchdog w).restore cb
  | .relock => (b.replica.watchdog.relock b.now).map b.setWatchdog
  | .internalLogin m => some { b with replica := b.replica.internalLogin m, committed := m.term }

/-- A login probes when the barrier of the one before is gone, and is committed neither while a probe is
between its two locks nor between the expiry of a barrier timer and its callback. -/
def Apart (b : Barrier ι) : BarrierAct ι → Prop
  | .probe _ _ true => b.NoProbe ∧ b.Unarmed
  | .internalLogin _ => b.NoProbe ∧ ∀ entry state, b.replica.watchdog.worker ≠ .firing entry state
  | _ => True

structure BarrierInv (b : Barrier ι) : Prop where
  one : ∀ i j, (b.probes i).inProgress → (b.probes j).inProgress → i = j
  fresh : ∀ id, b.replica.watchdog.nextId ≤ id → b.timers id = none
  firedFresh : ∀ e st, b.replica.watchdog.worker = .fired e st → e.id < b.replica.watchdog.nextId
  unlocked : ∀ i ret cb, b.probes i = .unlocked ret cb → cb.currentTerm = b.committed ∧ cb.term = b.term ∧
    ∀ id, b.timers id = none
  armed : ∀ i ret id, b.probes i = .armed ret id → ∀ id' st, b.timers id' = some st → id' = id
  timers : ∀ id st, b.timers id = some st → st.cb.currentTerm = b.committed ∧ st.recurring = false ∧
    (b.replica.pendingLoginTimer = some id ∨ ∃ i ret, b.probes i = .armed ret id)
  firing : ∀ e st, b.replica.watchdog.worker = .firing e st → b.timers e.id = some st
  fired : ∀ e st, b.replica.watchdog.worker = .fired e st → st.recurring = false
  barrier : b.term = b.committed ∨ (∃ i ret cb, b.probes i = .unlocked ret cb) ∨
    ∃ id st, b.timers id = some st ∧ st.cb.term = b.term ∧
      ∀ e st', b.replica.watchdog.worker = .fired e st' → e.id ≠ id

section Steps

variable {b c : Barrier ι} {i : ι}

lemma BarrierInv.none_of_unarmed (h : BarrierInv b) (hu : b.Unarmed) (id : ℕ) : b.timers id = none := by
  rcases lt_or_ge id b.replica.watchdog.nextId with hlt | hge
  · exact Option.isNone_iff_eq_none.mp (hu id hlt)
  · exact h.fresh id hge

lemma BarrierInv.not_firing (h : BarrierInv b) (hnone : ∀ id, b.timers id = none) (e : HeapEntry)
    (st : TimerState Restore) : b.replica.watchdog.worker ≠ .firing e st := by
  intro hw
  have hs := h.firing e st hw
  rw [hnone] at hs
  cases hs

lemma BarrierInv.of_none (h : BarrierInv b) (hnone : ∀ id, c.timers id = none)
    (hid : c.replica.watchdog.nextId = b.replica.watchdog.nextId)
    (hw : c.replica.watchdog.worker = b.replica.watchdog.worker)
    (hfiring : ∀ e st, b.replica.watchdog.worker ≠ .firing e st)
    (hone : ∀ i j, (c.probes i).inProgress → (c.probes j).inProgress → i = j)
    (hunlocked : ∀ i ret cb, c.probes i = .unlocked ret cb →
      cb.currentTerm = c.committed ∧ cb.term = c.term)
    (hbarrier : c.term = c.committed ∨ ∃ i ret cb, c.probes i = .unlocked ret cb) : BarrierInv c where
  one := hone
  fresh id _ := hnone id
  firedFresh e st hf := hid ▸ h.firedFresh e st (hw ▸ hf)
  unlocked i ret cb hi := ⟨(hunlocked i ret cb hi).1, (hunlocked i ret cb hi).2, hnone⟩
  armed i ret id _ id' st hs := by simp [hnone] at hs
  timers id st hs := by simp [hnone] at hs
  firing e st hf := absurd (hw ▸ hf) (hfiring e st)
  fired e st hf := h.fired e st (hw ▸ hf)
  barrier := hbarrier.imp id Or.inl

lemma BarrierInv.internalLogin (h : BarrierInv b) (hn : b.NoProbe)
    (hf : ∀ e st, b.replica.watchdog.worker ≠ .firing e st) (m : InternalLoginMsg) :
    BarrierInv { b with replica := b.replica.internalLogin m, committed := m.term } := by
  apply h.of_none
  · intro id
    change (b.replica.internalLogin m).watchdog.timers id = none
    rw [RaftReplica.internalLogin_watchdog, RaftReplica.cancelPending_timers]
    split_ifs with hp
    · rfl
    · -- the timer of a probe that is done is the pending one
      cases hs : b.timers id with
      | none => exact hs
      | some st =>
        obtain ⟨-, -, hpend | ⟨i, ret, hi⟩⟩ := h.timers id st hs
        · exact absurd hpend hp
        · exact absurd (by rw [hi]; rfl) (hn i)
  · rw [RaftReplica.internalLogin_watchdog, RaftReplica.cancelPending_nextId]
  · rw [RaftReplica.internalLogin_watchdog, RaftReplica.cancelPending_worker]
  · exact hf
  · exact h.one
  · intro i ret cb hi
    exact absurd (by rw [hi]; rfl) (hn i)
  · exact Or.inl (RaftReplica.internalLogin_term ..)

variable [DecidableEq ι]

lemma setProbe_probes (b : Barrier ι) (i j : ι) (pc : ProbePc) :
    (b.setProbe i pc).probes j = if j = i then pc else b.probes j := Function.update_apply ..

lemma BarrierInv.probe (h : BarrierInv b) (hn : b.NoProbe) (hu : b.Unarmed) (ret : LsnPair) (term : UInt64) :
    BarrierInv { b.setProbe i (.unlocked ret ⟨b.term, term⟩) with replica := b.replica.quiesce term } := by
  have hnone := h.none_of_unarmed hu
  have hterm : b.term = b.committed := by
    obtain ht | ⟨j, ret, cb, hj⟩ | ⟨id, st, hs, -⟩ := h.barrier
    · exact ht
    · exact absurd (by rw [hj]; rfl) (hn j)
    · rw [hnone] at hs
      cases hs
  have hi : ∀ j, ((b.setProbe i (.unlocked ret ⟨b.term, term⟩)).probes j).inProgress → j = i := by
    intro j hj
    rw [setProbe_probes] at hj
    split_ifs at hj with hji
    · exact hji
    · exact absurd hj (hn j)
  apply h.of_none
  · intro id
    change (b.replica.quiesce term).watchdog.timers id = none
    rw [RaftReplica.quiesce, RaftReplica.cancelPending_timers]
    split_ifs
    · rfl
    · exact hnone id
  · exact RaftReplica.cancelPending_nextId _
  · exact RaftReplica.cancelPending_worker _
  · exact h.not_firing hnone
  · intro j k hj hk
    rw [hi j hj, hi k hk]
  · intro j ret' cb hj
    obtain rfl : j = i := hi j (by rw [hj]; rfl)
    rw [setProbe_probes, if_pos rfl] at hj
    cases hj
    exact ⟨hterm, by simp [Barrier.term, RaftReplica.quiesce, RaftReplica.setTerm]⟩
  · refine Or.inr ⟨i, ret, ⟨b.term, term⟩, ?_⟩
    rw [setProbe_probes, if_pos rfl]

lemma BarrierInv.arm (h : BarrierInv b) {ret : LsnPair} {cb : Restore} (hi : b.probes i = .unlocked ret cb) :
    BarrierInv { b.setProbe i (.armed ret b.replica.watchdog.nextId) with
      replica := (b.replica.armBarrier b.now cb).2 } := by
  obtain ⟨hcur, hterm, hnone⟩ := h.unlocked i ret cb hi
  have honly : ∀ j, ((b.setProbe i (.armed ret b.replica.watchdog.nextId)).probes j).inProgress → j = i := by
    intro j hj
    rw [setProbe_probes] at hj
    split_ifs at hj with hji
    · exact hji
    · exact h.one j i hj (by rw [hi]; rfl)
  have htimers : ∀ id, (b.replica.armBarrier b.now cb).2.watchdog.timers id =
      if id = b.replica.watchdog.nextId then
        some ⟨b.now + 2 * loginWaitTime, 2 * loginWaitTime, false, 0, cb⟩ else none := by
    intro id
    change Function.update b.timers b.replica.watchdog.nextId (some _) id = _
    rw [Function.update_apply, hnone id]
    rfl
  have hnew : ∀ id st, (b.replica.armBarrier b.now cb).2.watchdog.timers id = some st →
      id = b.replica.watchdog.nextId ∧ st.cb = cb ∧ st.recurring = false := by
    intro id st hs
    rw [htimers] at hs
    split_ifs at hs with hid
    cases hs
    exact ⟨hid, rfl, rfl⟩
  have hself : (b.setProbe i (.armed ret b.replica.watchdog.nextId)).probes i =
      .armed ret b.replica.watchdog.nextId := by rw [setProbe_probes, if_pos rfl]
  constructor
  · intro j k hj hk
    rw [honly j hj, honly k hk]
  · intro id hid
    refine (htimers id).trans (if_neg ?_)
    have : b.replica.watchdog.nextId + 1 ≤ id := hid
    omega
  · intro e st hw
    exact Nat.lt_succ_of_lt (h.firedFresh e st hw)
  · intro j ret' cb' hj
    obtain rfl : j = i := honly j (by rw [hj]; rfl)
    rw [hself] at hj
    cases hj
  · intro j ret' id hj id' st hs
    obtain rfl : j = i := honly j (by rw [hj]; rfl)
    rw [hself] at hj
    cases hj
    exact (hnew id' st hs).1
  · intro id st hs
    obtain ⟨rfl, hcb, hrec⟩ := hnew id st hs
    exact ⟨hcb ▸ hcur, hrec, Or.inr ⟨i, ret, hself⟩⟩
  · intro e st hw
    exact absurd hw (h.not_firing hnone e st)
  · exact h.fired
  · refine Or.inr (Or.inr ⟨b.replica.watchdog.nextId, _, (htimers _).trans (if_pos rfl), hterm, ?_⟩)
    intro e st hw
    exact (h.firedFresh e st hw).ne

lemma BarrierInv.record (h : BarrierInv b) {ret : LsnPair} {id : ℕ} (hi : b.probes i = .armed ret id) :
    BarrierInv { b.setProbe i (.done ret) with replica := { b.replica with pendingLoginTimer := some id } } := by
  have hidle : ∀ j, ¬ ((b.setProbe i (.done ret)).probes j).inProgress := by
    intro j hj
    rw [setProbe_probes] at hj
    split_ifs at hj with hji
    · cases hj
    · exact hji (h.one j i hj (by rw [hi]; rfl))
  constructor
  · intro j _ hj
    exact absurd hj (hidle j)
  · exact h.fresh
  · exact h.firedFresh
  · intro j ret' cb hj
    exact absurd (by rw [hj]; rfl) (hidle j)
  · intro j ret' id' hj
    exact absurd (by rw [hj]; rfl) (hidle j)
  · intro id' st hs
    obtain ⟨hcur, hrec, -⟩ := h.timers id' st hs
    exact ⟨hcur, hrec, Or.inl (by rw [h.armed i ret id hi id' st hs])⟩
  · exact h.firing
  · exact h.fired
  · obtain ht | ⟨j, ret', cb, hj⟩ | ht := h.barrier
    · exact Or.inl ht
    · obtain rfl : j = i := h.one j i (by rw [hj]; rfl) (by rw [hi]; rfl)
      rw [hi] at hj
      cases hj
    · exact Or.inr (Or.inr ht)

omit [DecidableEq ι] in
lemma BarrierInv.expire (h : BarrierInv b) {entry : HeapEntry} {w : Watchdog Restore}
    (hp : b.replica.watchdog.pop b.now entry = some w) : BarrierInv (b.setWatchdog w) := by
  obtain ⟨hid, ht, hw⟩ := Watchdog.pop_eq_some hp
  constructor
  · exact h.one
  · intro id hle
    change w.timers id = none
    rw [ht]
    exact h.fresh id (hid ▸ hle)
  · intro e st hf
    rcases hw with hw | ⟨st', hw, -⟩
    · cases hw.symm.trans hf
    · cases hw.symm.trans hf
  · intro i ret cb hi
    obtain ⟨hcur, hterm, hnone⟩ := h.unlocked i ret cb hi
    exact ⟨hcur, hterm, fun id => (congrFun ht id).trans (hnone id)⟩
  · intro i ret id hi id' st hs
    exact h.armed i ret id hi id' st ((congrFun ht id').symm.trans hs)
  · intro id st hs
    exact h.timers id st ((congrFun ht id).symm.trans hs)
  · intro e st hf
    rcases hw with hw | ⟨st', hw, hs⟩
    · cases hw.symm.trans hf
    · cases hw.symm.trans hf
      exact (congrFun ht _).trans hs
  · intro e st hf
    rcases hw with hw | ⟨st', hw, -⟩
    · cases hw.symm.trans hf
    · cases hw.symm.trans hf
  · obtain hterm | hj | ⟨id, st, hs, hst, -⟩ := h.barrier
    · exact Or.inl hterm
    · exact Or.inr (Or.inl hj)
    · refine Or.inr (Or.inr ⟨id, st, (congrFun ht id).trans hs, hst, ?_⟩)
      intro e st' hf
      rcases hw with hw | ⟨st'', hw, -⟩
      · cases hw.symm.trans hf
      · cases hw.symm.trans hf

omit [DecidableEq ι] in
lemma BarrierInv.callback (h : BarrierInv b) {cb : Restore} {w : Watchdog Restore}
    (hc : b.replica.watchdog.call = some (cb, w)) : BarrierInv ((b.setWatchdog w).restore cb) := by
  obtain ⟨e, st, hw, rfl, rfl⟩ := Watchdog.call_eq_some hc
  have hs := h.firing e st hw
  obtain ⟨hcur, hrec, -⟩ := h.timers e.id st hs
  have hno : ∀ i ret cb, b.probes i ≠ .unlocked ret cb := by
    intro i ret cb hi
    rw [(h.unlocked i ret cb hi).2.2] at hs
    cases hs
  have hlt : e.id < b.replica.watchdog.nextId := by
    by_contra hge
    rw [h.fresh e.id (not_lt.mp hge)] at hs
    cases hs
  set w' : Watchdog Restore := { b.replica.watchdog with worker := .fired e st }
  set c := (b.setWatchdog w').restore st.cb
  have hwatch : c.replica.watchdog = w' := RaftReplica.restore_watchdog _ _
  have ht : c.timers = b.timers := by
    rw [Barrier.timers, hwatch]
    rfl
  have hfired : ∀ e' st', c.replica.watchdog.worker = .fired e' st' → e' = e ∧ st' = st := by
    intro e' st' hf
    rw [hwatch] at hf
    cases hf
    exact ⟨rfl, rfl⟩
  have hterm : c.term = if b.term = st.cb.term then st.cb.currentTerm else b.term :=
    RaftReplica.restore_term _ _
  constructor
  · exact h.one
  · intro id hid
    rw [ht]
    rw [hwatch] at hid
    exact h.fresh id hid
  · intro e' st' hf
    rw [(hfired e' st' hf).1, hwatch]
    exact hlt
  · intro i ret cb hi
    exact absurd hi (hno i ret cb)
  · rw [ht]
    exact h.armed
  · have hp : c.replica.pendingLoginTimer = b.replica.pendingLoginTimer := RaftReplica.restore_pending _ _
    rw [ht, hp]
    exact h.timers
  · intro e' st' hf
    rw [hwatch] at hf
    cases hf
  · intro e' st' hf
    rw [(hfired e' st' hf).2]
    exact hrec
  · by_cases heq : b.term = st.cb.term
    · left
      rw [hterm, if_pos heq]
      exact hcur
    · rw [if_neg heq] at hterm
      rw [hterm, ht]
      obtain hb | ⟨i, ret, cb, hi⟩ | ⟨id, st', hs', hst', -⟩ := h.barrier
      · exact Or.inl hb
      · exact absurd hi (hno i ret cb)
      · refine Or.inr (Or.inr ⟨id, st', hs', hst', ?_⟩)
        intro e' st'' hf hid
        rw [(hfired e' st'' hf).1] at hid
        rw [← hid, hs] at hs'
        cases hs'
        exact heq hst'.symm

omit [DecidableEq ι] in
lemma BarrierInv.relock (h : BarrierInv b) {w : Watchdog Restore}
    (hl : b.replica.watchdog.relock b.now = some w) : BarrierInv (b.setWatchdog w) := by
  obtain ⟨e, st, hw, hcancel⟩ := Watchdog.relock_eq_some hl
  obtain rfl := hcancel (h.fired e st hw)
  have ht : ∀ id st', Function.update b.timers e.id none id = some st' → id ≠ e.id ∧ b.timers id = some st' := by
    intro id st' hs
    rw [Function.update_apply] at hs
    split_ifs at hs with hid
    exact ⟨hid, hs⟩
  have hnone : ∀ id, b.timers id = none → Function.update b.timers e.id none id = none := by
    intro id hid
    rw [Function.update_apply]
    split_ifs
    · rfl
    · exact hid
  constructor
  · exact h.one
  · intro id hid
    exact hnone id (h.fresh id hid)
  · intro e' st' hf
    cases hf
  · intro i ret cb hi
    obtain ⟨hcur, hterm, hu⟩ := h.unlocked i ret cb hi
    exact ⟨hcur, hterm, fun id => hnone id (hu id)⟩
  · intro i ret id hi id' st' hs
    exact h.armed i ret id hi id' st' (ht id' st' hs).2
  · intro id st' hs
    exact h.timers id st' (ht id st' hs).2
  · intro e' st' hf
    cases hf
  · intro e' st' hf
    cases hf
  · obtain hb | hi | ⟨id, st', hs, hst, hne⟩ := h.barrier
    · exact Or.inl hb
    · exact Or.inr (Or.inl hi)
    · refine Or.inr (Or.inr ⟨id, st', ?_, hst, ?_⟩)
      · exact (Function.update_of_ne (hne e st hw).symm _ _).trans hs
      · intro e' st'' hf
        cases hf

lemma BarrierInv.peek (h : BarrierInv b) (hi : ¬ (b.probes i).inProgress) (ret : LsnPair) :
    BarrierInv (b.setProbe i (.done ret)) := by
  have hsame : ∀ j pc, pc.inProgress → ((b.setProbe i (.done ret)).probes j = pc ↔ b.probes j = pc) := by
    intro j pc hpc
    rw [setProbe_probes]
    split_ifs with hji
    · subst hji
      constructor
      · rintro rfl
        cases hpc
      · rintro rfl
        exact absurd hpc hi
    · rfl
  have hbusy : ∀ j, ((b.setProbe i (.done ret)).probes j).inProgress → (b.probes j).inProgress := by
    intro j hj
    rw [(hsame j _ hj).mp rfl]
    exact hj
  constructor
  · intro j k hj hk
    exact h.one j k (hbusy j hj) (hbusy k hk)
  · exact h.fresh
  · exact h.firedFresh
  · intro j ret' cb hj
    exact h.unlocked j ret' cb ((hsame j _ rfl).mp hj)
  · intro j ret' id hj
    exact h.armed j ret' id ((hsame j _ rfl).mp hj)
  · intro id st hs
    obtain ⟨hcur, hrec, hp⟩ := h.timers id st hs
    exact ⟨hcur, hrec, hp.imp_right fun ⟨j, ret', hj⟩ => ⟨j, ret', (hsame j _ rfl).mpr hj⟩⟩
  · exact h.firing
  · exact h.fired
  · obtain hb | ⟨j, ret', cb, hj⟩ | ht := h.barrier
    · exact Or.inl hb
    · exact Or.inr (Or.inl ⟨j, ret', cb, (hsame j _ rfl).mpr hj⟩)
    · exact Or.inr (Or.inr ht)

lemma BarrierInv.step (h : BarrierInv b) {a : BarrierAct ι} (hok : Apart b a) (hs : barrierStep b a = some c) :
    BarrierInv c := by
  cases a with
  | probe i term isLogin =>
    simp only [barrierStep] at hs
    split_ifs at hs with hi hl
    · cases hs
      subst hl
      exact h.probe hok.1 hok.2 _ _
    · cases hs
      exact h.peek hi _
  | arm i =>
    simp only [barrierStep] at hs
    split at hs
    · rename_i ret cb hi
      cases hs
      exact h.arm hi
    · cases hs
  | record i =>
    simp only [barrierStep] at hs
    split at hs
    · rename_i ret id hi
      cases hs
      exact h.record hi
    · cases hs
  | tick seconds =>
    cases hs
    exact { h with }
  | expire entry =>
    obtain ⟨w, hp, rfl⟩ := Option.map_eq_some_iff.mp hs
    exact h.expire hp
  | callback =>
    obtain ⟨⟨cb, w⟩, hc, rfl⟩ := Option.map_eq_some_iff.mp hs
    exact h.callback hc
  | relock =>
    obtain ⟨w, hl, rfl⟩ := Option.map_eq_some_iff.mp hs
    exact h.relock hl
  | internalLogin m =>
    cases hs
    exact h.internalLogin hok.1 hok.2 m

end Steps

lemma barrierInv_start (mem : MemReplica) : BarrierInv (Barrier.start mem : Barrier ι) where
  one _ _ hi := by cases hi
  fresh _ _ := rfl
  firedFresh _ _ hf := by cases hf
  unlocked _ _ _ hi := by cases hi
  armed _ _ _ hi := by cases hi
  timers _ _ hs := by cases hs
  firing _ _ hf := by cases hf
  fired _ _ hf := by cases hf
  barrier := Or.inl rfl

theorem term_committed_of_settled [DecidableEq ι] (mem : MemReplica) {b : Barrier ι}
    (h : Reach barrierStep Apart (.start mem) b) (hn : b.NoProbe) (hu : b.Unarmed) :
    b.term = b.committed := by
  have hinv : BarrierInv b := h.invariant (barrierInv_start mem) fun _ _ _ hb hok hs => hb.step hok hs
  obtain hb | ⟨i, ret, cb, hi⟩ | ⟨id, st, hs, -⟩ := hinv.barrier
  · exact hb
  · exact absurd (by rw [hi]; rfl) (hn i)
  · rw [hinv.none_of_unarmed hu] at hs
    cases hs

section Runs

def probedBy (i : Fin 2) (term : UInt64) : List (BarrierAct (Fin 2)) := [.probe i term true, .arm i, .record i]

def fires (entry : HeapEntry) : List (BarrierAct (Fin 2)) := [.expire entry, .callback, .relock]

def session5 : MemReplica := (MemReplica.new 4096).coldApplyLogin 7 5

instance [Fintype ι] (b : Barrier ι) : Decidable b.NoProbe := inferInstanceAs (Decidable (∀ _, _))

instance (b : Barrier ι) : Decidable b.Unarmed := inferInstanceAs (Decidable (∀ _ < _, _))

def Worker.isFiring : Worker Restore → Bool
  | .firing _ _ => true
  | _ => false

instance [Fintype ι] (b : Barrier ι) (a : BarrierAct ι) : Decidable (Apart b a) :=
  match a with
  | .probe _ _ true => inferInstanceAs (Decidable (_ ∧ _))
  | .internalLogin _ => decidable_of_iff (b.NoProbe ∧ b.replica.watchdog.worker.isFiring = false) (by
      rw [Apart]
      refine and_congr Iff.rfl ?_
      cases b.replica.watchdog.worker <;> simp [Worker.isFiring])
  | .probe _ _ false | .arm _ | .record _ | .tick _ | .expire _ | .callback | .relock => .isTrue trivial

def settledAt (term committed : UInt64) (b : Barrier (Fin 2)) : Bool :=
  decide b.NoProbe && (decide b.Unarmed && (b.term = term && b.committed = committed))

lemma exists_settled {ok : Barrier (Fin 2) → BarrierAct (Fin 2) → Prop} {term committed : UInt64}
    (h : ∃ b, Reach barrierStep ok (.start session5) b ∧ settledAt term committed b = true) :
    ∃ b, Reach barrierStep ok (.start session5) b ∧ b.NoProbe ∧ b.Unarmed ∧ b.term = term ∧
      b.committed = committed := by
  obtain ⟨b, hb, hs⟩ := h
  simp only [settledAt, Bool.and_eq_true, decide_eq_true_eq] at hs
  exact ⟨b, hb, hs⟩

theorem term_committed_secondLogin :
    ∃ b : Barrier (Fin 2), Reach barrierStep Apart (.start session5) b ∧ b.NoProbe ∧ b.Unarmed ∧
      b.committed = 7 ∧ b.term = b.committed := by
  obtain ⟨b, hb, hn, hu, -, hc⟩ := exists_settled (Reach.exists_of_exec barrierStep Apart (.start session5)
    (probedBy 0 6 ++ [.tick 4] ++ fires ⟨4, 1, 0⟩ ++ probedBy 1 7 ++
      [.internalLogin { clientToken := 8, term := 7 }])
    (settledAt 7 7) (by decide +kernel))
  exact ⟨b, hb, hn, hu, hc, term_committed_of_settled session5 hb hn hu⟩

theorem abandoned_probes_leave_barrier :
    ∃ b : Barrier (Fin 2), Reach barrierStep free (.start session5) b ∧ b.NoProbe ∧ b.Unarmed ∧
      b.term = 6 ∧ b.committed = 5 :=
  exists_settled (Reach.exists_of_exec barrierStep free (.start session5)
    (probedBy 0 6 ++ [.tick 1] ++ probedBy 1 7 ++ [.tick 4, .expire ⟨4, 1, 0⟩] ++ fires ⟨5, 2, 0⟩)
    (settledAt 6 5) (by decide +kernel))

theorem late_timer_undoes_commit :
    ∃ b : Barrier (Fin 2), Reach barrierStep free (.start session5) b ∧ b.NoProbe ∧ b.Unarmed ∧
      b.term = 5 ∧ b.committed = 6 :=
  exists_settled (Reach.exists_of_exec barrierStep free (.start session5)
    ([.probe 0 6 true, .internalLogin { clientToken := 8, term := 6 }, .arm 0, .record 0, .tick 4] ++
      fires ⟨4, 1, 0⟩)
    (settledAt 5 6) (by decide +kernel))

end Runs

end CraftClient.Raft
