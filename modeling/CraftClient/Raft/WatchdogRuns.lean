import CraftClient.Lib.Runs
import CraftClient.Raft.Watchdog

namespace CraftClient.Raft

open Runs

variable {β : Type}

def Worker.taken : Worker β → Option (HeapEntry × TimerState β)
  | .waiting => none
  | .firing entry state => some (entry, state)
  | .fired entry state => some (entry, state)

/-- The entry whose timer cannot be reset any more: its callback starts whatever the new deadline, and a one-shot is
erased once its callback has returned. -/
def Worker.late : Worker β → Option HeapEntry
  | .waiting => none
  | .firing entry _ => some entry
  | .fired entry state => if state.recurring then none else some entry

namespace Watchdog

def cancels (w : Watchdog β) (id : ℕ) : Bool := (w.timers id).isSome

def entries (w : Watchdog β) (id generation : ℕ) : List HeapEntry :=
  w.heap.filter fun e => e.id = id ∧ e.generation = generation

def Holds (w : Watchdog β) (id generation : ℕ) : Prop :=
  ∃ e st, w.worker.taken = some (e, st) ∧ e.id = id ∧ st.generation = generation

structure Inv (w : Watchdog β) : Prop where
  timerFresh : ∀ id st, w.timers id = some st → id < w.nextId
  entryFresh : ∀ e ∈ w.heap, e.id < w.nextId
  entryGen : ∀ e ∈ w.heap, ∀ st, w.timers e.id = some st → e.generation ≤ st.generation
  takenFresh : ∀ e st, w.worker.taken = some (e, st) → e.id < w.nextId
  takenGen : ∀ e st st', w.worker.taken = some (e, st) → w.timers e.id = some st' → st.generation ≤ st'.generation
  armed : ∀ id st, w.timers id = some st → ¬ w.Holds id st.generation →
    w.entries id st.generation = [⟨st.deadline, id, st.generation⟩]
  held : ∀ id st, w.timers id = some st → w.Holds id st.generation → w.entries id st.generation = []

variable {w w' : Watchdog β} {id g : ℕ} {now delay : ℤ} {period : Option ℤ} {cb : β} {entry : HeapEntry}

lemma inv_new : Inv (new : Watchdog β) := by
  constructor
  · rintro id st ⟨⟩
  · rintro e ⟨⟩
  · rintro e ⟨⟩
  · rintro e st ⟨⟩
  · rintro e st st' ⟨⟩
  · rintro id st ⟨⟩
  · rintro id st ⟨⟩

lemma not_holds_of_waiting (hw : w.worker = .waiting) : ¬ w.Holds id g := by
  rintro ⟨e, st, ht, -⟩
  rw [hw] at ht
  cases ht

lemma entries_cons (e : HeapEntry) (heap : List HeapEntry) (w : Watchdog β) (id g : ℕ) :
    ({ w with heap := e :: heap } : Watchdog β).entries id g =
      if e.id = id ∧ e.generation = g then e :: ({ w with heap := heap } : Watchdog β).entries id g
      else ({ w with heap := heap } : Watchdog β).entries id g := by
  simp only [entries, List.filter_cons, decide_eq_true_eq]

lemma entries_erase (w : Watchdog β) (entry : HeapEntry) (id g : ℕ) :
    ({ w with heap := w.heap.erase entry } : Watchdog β).entries id g = (w.entries id g).erase entry :=
  List.erase_filter.symm

lemma entries_erase_of_ne (h : ¬ (entry.id = id ∧ entry.generation = g)) :
    ({ w with heap := w.heap.erase entry } : Watchdog β).entries id g = w.entries id g := by
  rw [entries_erase, List.erase_eq_self_iff]
  intro hin
  exact h (by simpa using (List.mem_filter.mp hin).2)

section Steps

def arm (w : Watchdog β) (id : ℕ) (st : TimerState β) : Watchdog β :=
  { w with
    heap := ⟨st.deadline, id, st.generation⟩ :: w.heap
    timers := Function.update w.timers id (some st) }

lemma arm_timers (w : Watchdog β) (id : ℕ) (st : TimerState β) (id' : ℕ) :
    (w.arm id st).timers id' = if id' = id then some st else w.timers id' := Function.update_apply ..

lemma cancel_timers (w : Watchdog β) (id id' : ℕ) :
    (w.cancel id).timers id' = if id' = id then none else w.timers id' := Function.update_apply ..

lemma of_cancel_timers {id' : ℕ} {st : TimerState β} (h : (w.cancel id).timers id' = some st) :
    id' ≠ id ∧ w.timers id' = some st := by
  rw [cancel_timers] at h
  split_ifs at h with hid
  exact ⟨hid, h⟩

lemma Inv.arm (h : Inv w) (hid : id < w.nextId) {st : TimerState β}
    (hle : ∀ e ∈ w.heap, e.id = id → e.generation ≤ st.generation) (hnone : w.entries id st.generation = [])
    (htaken : ∀ e st₀, w.worker.taken = some (e, st₀) → e.id = id → st₀.generation < st.generation) :
    Inv (w.arm id st) := by
  have hholds : ¬ w.Holds id st.generation := by
    rintro ⟨e, st₀, ht, he, hg⟩
    exact absurd hg (htaken e st₀ ht he).ne
  have hentries (id' g : ℕ) (hne : ¬ (id = id' ∧ st.generation = g)) : (w.arm id st).entries id' g = w.entries id' g :=
    (entries_cons ⟨st.deadline, id, st.generation⟩ w.heap w id' g).trans (if_neg hne)
  constructor
  · intro id' st' hst'
    rw [arm_timers] at hst'
    split_ifs at hst' with heq
    · exact heq ▸ hid
    · exact h.timerFresh id' st' hst'
  · exact List.forall_mem_cons.mpr ⟨hid, h.entryFresh⟩
  · refine List.forall_mem_cons.mpr ⟨fun st' hst' => ?_, fun e he st' hst' => ?_⟩
    · rw [arm_timers, if_pos rfl] at hst'
      cases hst'
      exact le_rfl
    · rw [arm_timers] at hst'
      split_ifs at hst' with heq
      · cases hst'
        exact hle e he heq
      · exact h.entryGen e he st' hst'
  · exact h.takenFresh
  · intro e st₀ st' ht hst'
    rw [arm_timers] at hst'
    split_ifs at hst' with heq
    · cases hst'
      exact (htaken e st₀ ht heq).le
    · exact h.takenGen e st₀ st' ht hst'
  · intro id' st' hst' hno
    rw [arm_timers] at hst'
    split_ifs at hst' with heq
    · cases hst'
      subst heq
      exact (entries_cons ⟨st.deadline, id', st.generation⟩ w.heap w id' st.generation).trans
        ((if_pos ⟨rfl, rfl⟩).trans (congrArg _ hnone))
    · rw [hentries id' _ fun hh => heq hh.1.symm]
      exact h.armed id' st' hst' hno
  · intro id' st' hst' hyes
    rw [arm_timers] at hst'
    split_ifs at hst' with heq
    · cases hst'
      exact absurd (heq ▸ hyes) hholds
    · rw [hentries id' _ fun hh => heq hh.1.symm]
      exact h.held id' st' hst' hyes

lemma Inv.cancel (h : Inv w) (id : ℕ) : Inv (w.cancel id) where
  timerFresh id' st hst := h.timerFresh id' st (of_cancel_timers hst).2
  entryFresh := h.entryFresh
  entryGen e he st hst := h.entryGen e he st (of_cancel_timers hst).2
  takenFresh := h.takenFresh
  takenGen e st st' ht hst := h.takenGen e st st' ht (of_cancel_timers hst).2
  armed id' st hst := h.armed id' st (of_cancel_timers hst).2
  held id' st hst := h.held id' st (of_cancel_timers hst).2

lemma Inv.addTimer (h : Inv w) (now delay : ℤ) (period : Option ℤ) (cb : β) :
    Inv (w.addTimer now delay period cb).2 := by
  have hnext : Inv { w with nextId := w.nextId + 1 } :=
    { h with
      timerFresh := fun id st hst => (h.timerFresh id st hst).trans (Nat.lt_succ_self _)
      entryFresh := fun e he => (h.entryFresh e he).trans (Nat.lt_succ_self _)
      takenFresh := fun e st ht => (h.takenFresh e st ht).trans (Nat.lt_succ_self _) }
  refine hnext.arm (Nat.lt_succ_self _) (fun e he hid => ?_) ?_ fun e st ht hid => ?_
  · exact absurd hid (h.entryFresh e he).ne
  · rw [entries, List.filter_eq_nil_iff]
    intro e he hid
    exact absurd (of_decide_eq_true hid).1 (h.entryFresh e he).ne
  · exact absurd hid (h.takenFresh e st ht).ne

lemma reset_eq (w : Watchdog β) (now : ℤ) (id : ℕ) : (w.reset now id).1 = w.cancels id := by
  rw [reset, cancels]
  cases w.timers id <;> rfl

lemma reset_some {st : TimerState β} (hst : w.timers id = some st) (now : ℤ) : (w.reset now id).2 =
    (w.cancel id).arm id { st with deadline := now + st.period, generation := st.generation + 1 } := by
  rw [reset, hst, arm, Watchdog.cancel, Function.update_idem]

lemma reset_none (hnone : w.timers id = none) (now : ℤ) : (w.reset now id).2 = w := by
  rw [reset, hnone]

@[simp] lemma reset_worker (w : Watchdog β) (now : ℤ) (id : ℕ) : (w.reset now id).2.worker = w.worker := by
  rw [Watchdog.reset]
  cases w.timers id <;> rfl

lemma reset_timers_of_ne {id' : ℕ} (h : id' ≠ id) (now : ℤ) : (w.reset now id).2.timers id' = w.timers id' := by
  cases hst : w.timers id with
  | none => rw [reset_none hst]
  | some st => rw [reset_some hst, arm_timers, if_neg h, cancel_timers, if_neg h]

lemma addTimer_timers_of_lt {id' : ℕ} (h : id' < w.nextId) (now delay : ℤ) (period : Option ℤ) (cb : β) :
    (w.addTimer now delay period cb).2.timers id' = w.timers id' :=
  Function.update_of_ne h.ne _ _

lemma Inv.reset (h : Inv w) (now : ℤ) (id : ℕ) : Inv (w.reset now id).2 := by
  cases hst : w.timers id with
  | none => rwa [reset_none hst]
  | some st =>
    rw [reset_some hst]
    refine (h.cancel id).arm (h.timerFresh id st hst) (fun e he hid => ?_) ?_ fun e st₀ ht hid => ?_
    · exact (h.entryGen e he st (hid ▸ hst)).trans (Nat.le_succ _)
    · rw [entries, List.filter_eq_nil_iff]
      intro e he hmatch
      obtain ⟨hid, hgen⟩ := of_decide_eq_true hmatch
      have := h.entryGen e he st (hid ▸ hst)
      simp only at hgen
      omega
    · exact Nat.lt_succ_of_le (h.takenGen e st₀ st ht (hid ▸ hst))

lemma Inv.deadline_eq (h : Inv w) (hw : w.worker = .waiting) (he : entry ∈ w.heap) {st : TimerState β}
    (hst : w.timers entry.id = some st) (hgen : st.generation = entry.generation) :
    w.entries entry.id st.generation = [entry] ∧ entry.deadline = st.deadline := by
  have harmed := h.armed entry.id st hst (not_holds_of_waiting hw)
  have hin : entry ∈ w.entries entry.id st.generation :=
    List.mem_filter.mpr ⟨he, decide_eq_true ⟨rfl, hgen.symm⟩⟩
  rw [harmed, List.mem_singleton] at hin
  exact ⟨harmed.trans (congrArg (fun e => [e]) hin.symm), congrArg HeapEntry.deadline hin⟩

lemma Inv.pop (h : Inv w) (hp : w.pop now entry = some w') : Inv w' := by
  obtain ⟨hw, hin, -, ⟨hstale, rfl⟩ | ⟨st, hst, hgen, rfl⟩⟩ := pop_cases hp
  · have hentries (id : ℕ) (st : TimerState β) (hst : w.timers id = some st) :
        ({ w with heap := w.heap.erase entry } : Watchdog β).entries id st.generation = w.entries id st.generation :=
      entries_erase_of_ne fun hh => hstale st (hh.1 ▸ hst) hh.2.symm
    exact
      { h with
        entryFresh := fun e he => h.entryFresh e (List.mem_of_mem_erase he)
        entryGen := fun e he => h.entryGen e (List.mem_of_mem_erase he)
        armed := fun id st hst hno => (hentries id st hst).trans (h.armed id st hst hno)
        held := fun id st hst hyes => (hentries id st hst).trans (h.held id st hst hyes) }
  · have htaken (e : HeapEntry) (st₀ : TimerState β) (ht : (Worker.firing entry st).taken = some (e, st₀)) :
        e = entry ∧ st₀ = st := by
      cases ht
      exact ⟨rfl, rfl⟩
    obtain ⟨hone, -⟩ := h.deadline_eq hw hin hst hgen
    constructor
    · exact h.timerFresh
    · exact fun e he => h.entryFresh e (List.mem_of_mem_erase he)
    · exact fun e he => h.entryGen e (List.mem_of_mem_erase he)
    · intro e st₀ ht
      obtain ⟨rfl, -⟩ := htaken e st₀ ht
      exact h.entryFresh e hin
    · intro e st₀ st' ht hst'
      obtain ⟨rfl, rfl⟩ := htaken e st₀ ht
      cases hst.symm.trans hst'
      exact le_rfl
    · -- what is not held now is another entry than the one taken
      intro id st' hst' hno
      refine (entries_erase_of_ne fun hh => hno ?_).trans (h.armed id st' hst' (not_holds_of_waiting hw))
      exact ⟨entry, st, rfl, hh.1, hgen.trans hh.2⟩
    · rintro id st' hst' ⟨e, st₀, ht, hid, hg⟩
      obtain ⟨rfl, rfl⟩ := htaken e st₀ ht
      subst hid
      rw [← hg]
      exact (entries_erase w e e.id st₀.generation).trans (by rw [hone, List.erase_cons_head])

lemma Inv.of_taken (h : Inv w) {worker : Worker β} (ht : worker.taken = w.worker.taken) :
    Inv { w with worker := worker } := by
  have hholds (id g : ℕ) : ({ w with worker := worker } : Watchdog β).Holds id g ↔ w.Holds id g := by
    simp only [Holds, ht]
  constructor
  · exact h.timerFresh
  · exact h.entryFresh
  · exact h.entryGen
  · exact fun e st hh => h.takenFresh e st (ht ▸ hh)
  · exact fun e st st' hh => h.takenGen e st st' (ht ▸ hh)
  · exact fun id st hst hno => h.armed id st hst ((hholds id _).not.mp hno)
  · exact fun id st hst hyes => h.held id st hst ((hholds id _).mp hyes)

lemma Inv.release (h : Inv w) {e : HeapEntry} {st : TimerState β} (hw : w.worker = .fired e st)
    (hother : ∀ st', w.timers e.id = some st' → st'.generation ≠ st.generation) :
    Inv { w with worker := .waiting } := by
  have hno (id : ℕ) (st' : TimerState β) (hst' : w.timers id = some st') : ¬ w.Holds id st'.generation := by
    rintro ⟨e', st₀, ht, rfl, hg⟩
    rw [hw] at ht
    cases ht
    exact hother st' hst' hg.symm
  constructor
  · exact h.timerFresh
  · exact h.entryFresh
  · exact h.entryGen
  · rintro e st ⟨⟩
  · rintro e st st' ⟨⟩
  · exact fun id st' hst' _ => h.armed id st' hst' (hno id st' hst')
  · exact fun id st' hst' hyes => absurd hyes (not_holds_of_waiting rfl)

lemma relock_worker (hl : w.relock now = some w') : w'.worker = .waiting := by
  obtain ⟨e, st, -, ⟨-, rfl⟩ | ⟨-, -, rfl⟩ | ⟨-, st', -, -, rfl⟩⟩ := relock_cases hl <;> rfl

lemma relock_timers_of_ne {e : HeapEntry} {st : TimerState β} (hl : w.relock now = some w')
    (hw : w.worker = .fired e st) {id' : ℕ} (h : id' ≠ e.id) : w'.timers id' = w.timers id' := by
  obtain ⟨e', st', hw', hcases⟩ := relock_cases hl
  cases hw.symm.trans hw'
  obtain ⟨-, rfl⟩ | ⟨-, -, rfl⟩ | ⟨-, st'', -, -, rfl⟩ := hcases
  · exact (cancel_timers _ _ _).trans (if_neg h)
  · rfl
  · exact Function.update_of_ne h _ _

lemma Inv.relock (h : Inv w) (hl : w.relock now = some w') : Inv w' := by
  obtain ⟨e, st, hw, ⟨-, rfl⟩ | ⟨-, hother, rfl⟩ | ⟨-, st', hst', hgen, rfl⟩⟩ := relock_cases hl
  · refine (h.cancel e.id).release hw fun st' hst' => ?_
    exact absurd rfl (of_cancel_timers hst').1
  · exact h.release hw hother
  · have hfree : Inv (({ w with worker := .waiting } : Watchdog β).cancel e.id) :=
      (h.cancel e.id).release hw fun st' hst' => absurd rfl (of_cancel_timers hst').1
    have harm : Inv ((({ w with worker := .waiting } : Watchdog β).cancel e.id).arm e.id
        { st' with deadline := now + st.period }) :=
      hfree.arm (h.takenFresh e st (by rw [hw]; rfl)) (fun e' he' hid => h.entryGen e' he' st' (hid ▸ hst'))
        (h.held e.id st' hst' ⟨e, st, by rw [hw]; rfl, rfl, hgen.symm⟩) (by rintro e' st₀ ⟨⟩)
    rw [Watchdog.arm, Watchdog.cancel, Function.update_idem] at harm
    rwa [← hgen]

end Steps

end Watchdog

structure WatchdogSys (β : Type) where
  watchdog : Watchdog β
  now : ℤ

def WatchdogSys.start (now : ℤ) : WatchdogSys β := ⟨.new, now⟩

inductive WatchdogAct (β : Type)
  | tick (elapsed : ℕ)
  | addOneshot (delay : ℤ) (cb : β)
  | addRecurring (period : ℤ) (cb : β)
  | reset (id : ℕ)
  | cancel (id : ℕ)
  | pop (entry : HeapEntry)
  | call
  | relock

def watchdogStep (s : WatchdogSys β) : WatchdogAct β → Option (WatchdogSys β)
  | .tick elapsed => some { s with now := s.now + elapsed }
  | .addOneshot delay cb => some { s with watchdog := (s.watchdog.addOneshot s.now delay cb).2 }
  | .addRecurring period cb => some { s with watchdog := (s.watchdog.addRecurring s.now period cb).2 }
  | .reset id => some { s with watchdog := (s.watchdog.reset s.now id).2 }
  | .cancel id => some { s with watchdog := s.watchdog.cancel id }
  | .pop entry => (s.watchdog.pop s.now entry).map fun w => { s with watchdog := w }
  | .call => s.watchdog.call.map fun r => { s with watchdog := r.2 }
  | .relock => (s.watchdog.relock s.now).map fun w => { s with watchdog := w }

/-- A timer is not reset between the taking of its entry and the start of its callback, nor a one-shot before its
callback has returned. -/
def NoLateReset (s : WatchdogSys β) : WatchdogAct β → Prop
  | .reset id => ∀ e ∈ s.watchdog.worker.late, e.id ≠ id
  | _ => True

instance decidableNoLateReset (s : WatchdogSys β) : (a : WatchdogAct β) → Decidable (NoLateReset s a)
  | .reset id => inferInstanceAs (Decidable (∀ e ∈ s.watchdog.worker.late, e.id ≠ id))
  | .tick _ | .addOneshot .. | .addRecurring .. | .cancel _ | .pop _ | .call | .relock => .isTrue trivial

variable {s s' s₀ s₁ s₂ : WatchdogSys β} {a : WatchdogAct β} {id : ℕ} {ok : WatchdogSys β → WatchdogAct β → Prop}

lemma of_map_watchdog {o : Option (Watchdog β)} (h : (o.map fun w => { s with watchdog := w }) = some s') :
    o = some s'.watchdog ∧ s'.now = s.now := by
  obtain ⟨w, hw, rfl⟩ := Option.map_eq_some_iff.mp h
  exact ⟨hw, rfl⟩

lemma of_call (h : watchdogStep s .call = some s') :
    ∃ e st, s.watchdog.worker = .firing e st ∧ s' = { s with watchdog.worker := .fired e st } := by
  obtain ⟨⟨cb, w⟩, hc, rfl⟩ := Option.map_eq_some_iff.mp h
  obtain ⟨e, st, hw, -, rfl⟩ := Watchdog.call_eq_some hc
  exact ⟨e, st, hw, rfl⟩

section Inv

lemma inv_watchdogStep (h : s.watchdog.Inv) (hs : watchdogStep s a = some s') : s'.watchdog.Inv := by
  cases a with
  | tick elapsed =>
    cases hs
    exact h
  | addOneshot delay cb =>
    cases hs
    exact h.addTimer ..
  | addRecurring period cb =>
    cases hs
    exact h.addTimer ..
  | reset id =>
    cases hs
    exact h.reset _ id
  | cancel id =>
    cases hs
    exact h.cancel id
  | pop entry => exact h.pop (of_map_watchdog hs).1
  | call =>
    obtain ⟨e, st, hw, rfl⟩ := of_call hs
    exact h.of_taken (by rw [hw]; rfl)
  | relock => exact h.relock (of_map_watchdog hs).1

lemma inv_of_reach (h : Reach watchdogStep ok s₀ s) (h₀ : s₀.watchdog.Inv) : s.watchdog.Inv :=
  h.invariant h₀ fun _ _ _ hi _ hs => inv_watchdogStep hi hs

end Inv

section Due

def Due (s : WatchdogSys β) : Prop :=
  ∀ e st, s.watchdog.worker = .firing e st → st.deadline ≤ s.now ∧
    ∀ st', s.watchdog.timers e.id = some st' → st'.deadline ≤ s.now

lemma due_addTimer (hi : s.watchdog.Inv) (h : Due s) (delay : ℤ) (period : Option ℤ) (cb : β) :
    Due { s with watchdog := (s.watchdog.addTimer s.now delay period cb).2 } := by
  intro e st hw
  have hfresh := hi.takenFresh e st (congrArg Worker.taken hw)
  obtain ⟨hst, hst'⟩ := h e st hw
  exact ⟨hst, fun st' hh => hst' st' ((Watchdog.addTimer_timers_of_lt hfresh _ _ _ _).symm.trans hh)⟩

lemma due_watchdogStep (hi : s.watchdog.Inv) (h : Due s) (hok : NoLateReset s a) (hs : watchdogStep s a = some s') :
    Due s' := by
  intro e st hw
  cases a with
  | tick elapsed =>
    cases hs
    obtain ⟨hst, hst'⟩ := h e st hw
    have hle : s.now ≤ s.now + elapsed := by omega
    exact ⟨hst.trans hle, fun st' hh => (hst' st' hh).trans hle⟩
  | addOneshot delay cb =>
    cases hs
    exact due_addTimer hi h _ _ _ e st hw
  | addRecurring period cb =>
    cases hs
    exact due_addTimer hi h _ _ _ e st hw
  | reset id =>
    cases hs
    have hw₀ : s.watchdog.worker = .firing e st := (s.watchdog.reset_worker s.now id).symm.trans hw
    obtain ⟨hst, hst'⟩ := h e st hw₀
    refine ⟨hst, fun st' hh => hst' st' ?_⟩
    exact (Watchdog.reset_timers_of_ne (hok e (by rw [hw₀]; rfl)) s.now).symm.trans hh
  | cancel id =>
    cases hs
    obtain ⟨hst, hst'⟩ := h e st hw
    exact ⟨hst, fun st' hh => hst' st' (Watchdog.of_cancel_timers hh).2⟩
  | pop entry =>
    obtain ⟨hp, hnow⟩ := of_map_watchdog hs
    obtain ⟨hwait, hin, hdue, ⟨-, heq⟩ | ⟨st₀, hst₀, hgen, heq⟩⟩ := Watchdog.pop_cases hp
    · rw [heq] at hw
      cases hwait.symm.trans hw
    · -- the entry taken carries the deadline of its timer
      obtain ⟨-, hdl⟩ := hi.deadline_eq hwait hin hst₀ hgen
      rw [heq] at hw ⊢
      cases hw
      rw [hnow]
      refine ⟨hdl ▸ hdue, fun st' hh => ?_⟩
      cases hst₀.symm.trans hh
      exact hdl ▸ hdue
  | call =>
    obtain ⟨e', st', hw', rfl⟩ := of_call hs
    cases hw
  | relock =>
    rw [Watchdog.relock_worker (of_map_watchdog hs).1] at hw
    cases hw

end Due

section Gone

structure Gone (id : ℕ) (before w : Watchdog β) : Prop where
  fresh : id < w.nextId
  timer : w.timers id = none
  worker : ∀ e st, w.worker = .firing e st → e.id = id → before.worker = .firing e st

variable {before w w' : Watchdog β}

lemma Gone.addTimer (h : Gone id before w) (now delay : ℤ) (period : Option ℤ) (cb : β) :
    Gone id before (w.addTimer now delay period cb).2 :=
  ⟨h.fresh.trans (Nat.lt_succ_self _), (Watchdog.addTimer_timers_of_lt h.fresh ..).trans h.timer, h.worker⟩

lemma Gone.reset (h : Gone id before w) (now : ℤ) (id' : ℕ) : Gone id before (w.reset now id').2 := by
  cases hst : w.timers id' with
  | none => rwa [Watchdog.reset_none hst]
  | some st =>
    have hne : id ≠ id' := by
      rintro rfl
      rw [h.timer] at hst
      cases hst
    refine ⟨?_, (Watchdog.reset_timers_of_ne hne now).trans h.timer, fun e st' hw => ?_⟩
    · rw [Watchdog.reset_some hst]
      exact h.fresh
    · exact h.worker e st' ((w.reset_worker now id').symm.trans hw)

lemma Gone.pop (h : Gone id before w) {now : ℤ} {entry : HeapEntry} (hp : w.pop now entry = some w') :
    Gone id before w' := by
  obtain ⟨hid, ht, -⟩ := Watchdog.pop_eq_some hp
  refine ⟨hid ▸ h.fresh, ht ▸ h.timer, fun e st hw he => ?_⟩
  obtain ⟨hwait, -, -, ⟨-, rfl⟩ | ⟨st₀, hst₀, -, rfl⟩⟩ := Watchdog.pop_cases hp
  · exact h.worker e st hw he
  · cases hw
    rw [he, h.timer] at hst₀
    cases hst₀

lemma Gone.relock (h : Gone id before w) {now : ℤ} (hl : w.relock now = some w') : Gone id before w' := by
  have hwait := Watchdog.relock_worker hl
  obtain ⟨e, st, hw, hcases⟩ := Watchdog.relock_cases hl
  have hnone : w'.timers id = none := by
    by_cases hne : id = e.id
    · obtain ⟨-, rfl⟩ | ⟨-, -, rfl⟩ | ⟨-, st', hst', -, -⟩ := hcases
      · exact (Watchdog.cancel_timers _ _ _).trans (if_pos hne)
      · exact h.timer
      · rw [← hne, h.timer] at hst'
        cases hst'
    · exact (Watchdog.relock_timers_of_ne hl hw hne).trans h.timer
  refine ⟨?_, hnone, fun e' st' hw' => ?_⟩
  · obtain ⟨-, rfl⟩ | ⟨-, -, rfl⟩ | ⟨-, st', -, -, rfl⟩ := hcases <;> exact h.fresh
  · rw [hwait] at hw'
    cases hw'

lemma gone_watchdogStep (h : Gone id before s.watchdog) (hs : watchdogStep s a = some s') :
    Gone id before s'.watchdog := by
  cases a with
  | tick elapsed =>
    cases hs
    exact h
  | addOneshot delay cb =>
    cases hs
    exact h.addTimer ..
  | addRecurring period cb =>
    cases hs
    exact h.addTimer ..
  | reset id' =>
    cases hs
    exact h.reset s.now id'
  | cancel id' =>
    cases hs
    refine ⟨h.fresh, ?_, h.worker⟩
    rw [Watchdog.cancel_timers, h.timer, ite_self]
  | pop entry => exact h.pop (of_map_watchdog hs).1
  | call =>
    obtain ⟨e, st, hw, rfl⟩ := of_call hs
    refine ⟨h.fresh, h.timer, ?_⟩
    rintro e' st' ⟨⟩
  | relock => exact h.relock (of_map_watchdog hs).1

end Gone

section Kept

def LeftAlone (id : ℕ) (s : WatchdogSys β) (a : WatchdogAct β) : Prop :=
  a ≠ .cancel id ∧ ∀ entry, a = .pop entry → entry.id = id →
    ∀ st, s.watchdog.timers id = some st → st.generation ≠ entry.generation

structure Kept (id : ℕ) (since increment : ℤ) (s : WatchdogSys β) (st : TimerState β) : Prop where
  now : since ≤ s.now
  timer : s.watchdog.timers id = some st
  period : st.period = increment
  deadline : since + increment ≤ st.deadline
  taken : ∀ e st₀, s.watchdog.worker.taken = some (e, st₀) → e.id = id →
    st₀.recurring = true ∧ st₀.generation < st.generation

variable {since increment : ℤ} {st : TimerState β}

lemma Kept.of_watchdog (h : Kept id since increment s st) {w : Watchdog β} (ht : w.timers id = s.watchdog.timers id)
    (hw : ∀ e st₀, w.worker.taken = some (e, st₀) → e.id = id → s.watchdog.worker.taken = some (e, st₀)) :
    Kept id since increment { s with watchdog := w } st :=
  ⟨h.now, ht.trans h.timer, h.period, h.deadline, fun e st₀ hh he => h.taken e st₀ (hw e st₀ hh he) he⟩

lemma kept_reset (hi : s.watchdog.Inv) (hst : s.watchdog.timers id = some st) (hsince : since ≤ s.now)
    (htaken : ∀ e st₀, s.watchdog.worker.taken = some (e, st₀) → e.id = id → st₀.recurring = true) :
    Kept id since st.period { s with watchdog := (s.watchdog.reset s.now id).2 }
      { st with deadline := s.now + st.period, generation := st.generation + 1 } := by
  refine ⟨hsince, ?_, rfl, ?_, fun e st₀ ht he => ?_⟩
  · simp only
    rw [Watchdog.reset_some hst, Watchdog.arm_timers, if_pos rfl]
  · simp only
    omega
  · simp only [Watchdog.reset_worker] at ht
    exact ⟨htaken e st₀ ht he, Nat.lt_succ_of_le (hi.takenGen e st₀ st ht (he ▸ hst))⟩

lemma kept_watchdogStep (hi : s.watchdog.Inv) (h : Kept id since increment s st) (hok : LeftAlone id s a)
    (hs : watchdogStep s a = some s') : ∃ st', Kept id since increment s' st' := by
  have hfresh := hi.timerFresh id st h.timer
  cases a with
  | tick elapsed =>
    cases hs
    have hle : s.now ≤ s.now + elapsed := by omega
    exact ⟨st, { h with now := h.now.trans hle }⟩
  | addOneshot delay cb =>
    cases hs
    exact ⟨st, h.of_watchdog (Watchdog.addTimer_timers_of_lt hfresh ..) fun _ _ hh _ => hh⟩
  | addRecurring period cb =>
    cases hs
    exact ⟨st, h.of_watchdog (Watchdog.addTimer_timers_of_lt hfresh ..) fun _ _ hh _ => hh⟩
  | reset id' =>
    cases hs
    by_cases hid : id = id'
    · subst hid
      have hnew := kept_reset hi h.timer h.now fun e st₀ ht he => (h.taken e st₀ ht he).1
      rw [h.period] at hnew
      exact ⟨_, hnew⟩
    · exact ⟨st, h.of_watchdog (Watchdog.reset_timers_of_ne hid s.now) fun _ _ hh _ => by
        rwa [Watchdog.reset_worker] at hh⟩
  | cancel id' =>
    cases hs
    have hne : id ≠ id' := fun heq => hok.1 (heq ▸ rfl)
    exact ⟨st, h.of_watchdog ((Watchdog.cancel_timers ..).trans (if_neg hne)) fun _ _ hh _ => hh⟩
  | pop entry =>
    obtain ⟨w, hp, rfl⟩ := Option.map_eq_some_iff.mp hs
    obtain ⟨hwait, -, -, ⟨-, rfl⟩ | ⟨st₀, hst₀, hgen, rfl⟩⟩ := Watchdog.pop_cases hp
    · exact ⟨st, h.of_watchdog rfl fun _ _ hh _ => hh⟩
    · refine ⟨st, h.of_watchdog rfl fun e st' hh he => ?_⟩
      cases hh
      exact absurd hgen (hok.2 entry rfl he st₀ (he ▸ hst₀))
  | call =>
    obtain ⟨e, st₀, hw, rfl⟩ := of_call hs
    refine ⟨st, h.of_watchdog rfl fun e' st' hh _ => ?_⟩
    rw [hw]
    exact hh
  | relock =>
    obtain ⟨w, hl, rfl⟩ := Option.map_eq_some_iff.mp hs
    have hfree : ∀ e st₀, w.worker.taken = some (e, st₀) → e.id = id → s.watchdog.worker.taken = some (e, st₀) := by
      intro e st₀ hh
      rw [Watchdog.relock_worker hl] at hh
      cases hh
    obtain ⟨e, st₀, hw, hcases⟩ := Watchdog.relock_cases hl
    by_cases hid : id = e.id
    · -- the thread comes back from an earlier generation of a recurring timer, and leaves the timer alone
      obtain ⟨hrec, hlt⟩ := h.taken e st₀ (by rw [hw]; rfl) hid.symm
      obtain ⟨hone, -⟩ | ⟨-, -, rfl⟩ | ⟨-, st', hst', hgen, -⟩ := hcases
      · exact absurd (hone.symm.trans hrec) Bool.false_ne_true
      · exact ⟨st, h.of_watchdog rfl hfree⟩
      · rw [← hid, h.timer] at hst'
        cases hst'
        omega
    · exact ⟨st, h.of_watchdog (Watchdog.relock_timers_of_ne hl hw hid) hfree⟩

end Kept

section Runs

lemma due_of_reach {now : ℤ} (h : Reach watchdogStep NoLateReset (.start now) s) : Due s := by
  refine (h.invariant (P := fun s => s.watchdog.Inv ∧ Due s) ⟨Watchdog.inv_new, ?_⟩ fun s a t hst hok hs => ?_).2
  · rintro e st ⟨⟩
  · exact ⟨inv_watchdogStep hst.1 hs, due_watchdogStep hst.1 hst.2 hok hs⟩

lemma recurring_of_taken {w : Worker β} {e : HeapEntry} {st : TimerState β} (ht : w.taken = some (e, st))
    (hl : e ∉ w.late) : st.recurring = true := by
  cases w with
  | waiting => cases ht
  | firing e' st' =>
    cases ht
    exact absurd rfl hl
  | fired e' st' =>
    cases ht
    by_contra hrec
    exact hl (if_neg hrec)

lemma kept_of_reach {since increment : ℤ} {st : TimerState β} (hi : s₁.watchdog.Inv)
    (hk : Kept id since increment s₁ st) (h : Reach watchdogStep (LeftAlone id) s₁ s₂) :
    ∃ st', Kept id since increment s₂ st' := by
  refine (h.invariant (P := fun s => s.watchdog.Inv ∧ ∃ st', Kept id since increment s st') ⟨hi, st, hk⟩ ?_).2
  rintro s a t ⟨hi, st, hk⟩ hok hs
  exact ⟨inv_watchdogStep hi hs, kept_watchdogStep hi hk hok hs⟩

theorem watchdog_bookkeeping {now : ℤ} (h : Reach watchdogStep NoLateReset (.start now) s) :
    (s.watchdog.worker = .waiting → ∀ id st, s.watchdog.timers id = some st →
      s.watchdog.entries id st.generation = [⟨st.deadline, id, st.generation⟩]) ∧
    (∀ e st, s.watchdog.worker = .firing e st →
      st.deadline ≤ s.now ∧ ∀ st', s.watchdog.timers e.id = some st' → st'.deadline ≤ s.now) ∧
    (∀ id s₁ s₂, s.watchdog.cancels id = true → watchdogStep s (.cancel id) = some s₁ →
      Reach watchdogStep free s₁ s₂ → ∀ e st, s₂.watchdog.worker = .firing e st → e.id = id →
        s.watchdog.worker = .firing e st) ∧
    ∀ id s₁, NoLateReset s (.reset id) → (s.watchdog.reset s.now id).1 = true →
      watchdogStep s (.reset id) = some s₁ →
      ∃ st₁, s₁.watchdog.timers id = some st₁ ∧ ∀ s₂, Reach watchdogStep (LeftAlone id) s₁ s₂ →
        s₂.watchdog.worker = .waiting → ∃ st₂, s₂.watchdog.timers id = some st₂ ∧ st₁.deadline ≤ st₂.deadline ∧
          s₂.watchdog.entries id st₂.generation = [⟨st₂.deadline, id, st₂.generation⟩] := by
  have hi : s.watchdog.Inv := inv_of_reach h Watchdog.inv_new
  refine ⟨fun hw id st hst => ?_, due_of_reach h, ?_, ?_⟩
  · exact hi.armed id st hst (Watchdog.not_holds_of_waiting hw)
  · rintro id s₁ s₂ hc ⟨⟩ hr e st hw hid
    obtain ⟨st', hst'⟩ := Option.isSome_iff_exists.mp hc
    have hgone : Gone id s.watchdog (s.watchdog.cancel id) :=
      ⟨hi.timerFresh id st' hst', (Watchdog.cancel_timers ..).trans (if_pos rfl), fun e st hw _ => hw⟩
    have hend : Gone id s.watchdog s₂.watchdog := hr.invariant hgone fun _ _ _ hg _ hs => gone_watchdogStep hg hs
    exact hend.worker e st hw hid
  · rintro id s₁ hok hret ⟨⟩
    rw [Watchdog.reset_eq] at hret
    obtain ⟨st, hst⟩ := Option.isSome_iff_exists.mp hret
    have htaken : ∀ e st₀, s.watchdog.worker.taken = some (e, st₀) → e.id = id → st₀.recurring = true := by
      intro e st₀ ht he
      exact recurring_of_taken ht fun hl => hok e hl he
    have hkept := kept_reset hi hst le_rfl htaken
    have hi₁ := hi.reset s.now id
    refine ⟨_, hkept.timer, fun s₂ hr hw => ?_⟩
    obtain ⟨st₂, hkept₂⟩ := kept_of_reach hi₁ hkept hr
    exact ⟨st₂, hkept₂.timer, hkept₂.deadline,
      (inv_of_reach hr hi₁).armed id st₂ hkept₂.timer (Watchdog.not_holds_of_waiting hw)⟩

def insideCallback : WatchdogSys Unit where
  watchdog :=
    { nextId := 2
      heap := []
      timers := Function.update (fun _ => none) 1 (some ⟨4, 4, true, 0, ()⟩)
      worker := .fired ⟨4, 1, 0⟩ ⟨4, 4, true, 0, ()⟩ }
  now := 4

theorem watchdog_bookkeeping_insideCallback : Reach watchdogStep NoLateReset (.start 0) insideCallback ∧
    ∃ s₁ s₂, watchdogStep insideCallback (.reset 1) = some s₁ ∧ watchdogStep s₁ .relock = some s₂ ∧
      ∃ st₁ st₂, s₁.watchdog.timers 1 = some st₁ ∧ s₂.watchdog.timers 1 = some st₂ ∧ st₁.deadline ≤ st₂.deadline ∧
        s₂.watchdog.entries 1 st₂.generation = [⟨st₂.deadline, 1, st₂.generation⟩] := by
  have hrun : Reach watchdogStep NoLateReset (.start 0) insideCallback :=
    .of_exec [.addRecurring 4 (), .tick 4, .pop ⟨4, 1, 0⟩, .call] rfl
  obtain ⟨st₁, hst₁, hkept⟩ := (watchdog_bookkeeping hrun).2.2.2 1 _ (by decide) rfl rfl
  obtain ⟨st₂, hst₂, hle, hentries⟩ := hkept _ (.next (a := .relock) .refl ⟨by rintro ⟨⟩, by rintro entry ⟨⟩⟩ rfl) rfl
  exact ⟨hrun, _, _, rfl, rfl, st₁, st₂, hst₁, hst₂, hle, hentries⟩

theorem reset_lost_and_early : (∃ s s' : WatchdogSys Unit,
    Reach watchdogStep free (.start 0) s ∧ (s.watchdog.reset s.now 1).1 = true ∧
      Reach watchdogStep (LeftAlone 1) { s with watchdog := (s.watchdog.reset s.now 1).2 } s' ∧
      s'.watchdog.worker = .waiting ∧ s'.watchdog.timers 1 = none) ∧
    ∃ (s : WatchdogSys Unit) (e : HeapEntry) (st st' : TimerState Unit), Reach watchdogStep free (.start 0) s ∧
      s.watchdog.worker = .firing e st ∧ (watchdogStep s .call).isSome = true ∧
      s.watchdog.timers e.id = some st' ∧ s.now < st'.deadline := by
  constructor
  · refine ⟨_, _, .of_exec [.addOneshot 4 (), .tick 4, .pop ⟨4, 1, 0⟩, .call] rfl, rfl,
      .next (a := .relock) .refl ⟨by rintro ⟨⟩, by rintro entry ⟨⟩⟩ rfl, rfl, rfl⟩
  · exact ⟨_, _, _, _, .of_exec [.addOneshot 4 (), .tick 4, .pop ⟨4, 1, 0⟩, .reset 1] rfl, rfl, rfl, rfl, by decide⟩

end Runs

end CraftClient.Raft
