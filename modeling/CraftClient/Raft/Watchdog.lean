import Mathlib.Data.List.Basic
import Mathlib.Tactic

/-! `Watchdog`: timers that one thread fires in the order of their deadlines. -/

namespace CraftClient.Raft

structure TimerState (β : Type) where
  deadline : ℤ
  period : ℤ
  recurring : Bool
  generation : ℕ
  cb : β

structure HeapEntry where
  deadline : ℤ
  id : ℕ
  generation : ℕ
  deriving DecidableEq, Repr

/-- The thread of the watchdog: `firing` before the callback of the entry that it has taken, `fired` after. -/
inductive Worker (β : Type)
  | waiting
  | firing (entry : HeapEntry) (state : TimerState β)
  | fired (entry : HeapEntry) (state : TimerState β)

structure Watchdog (β : Type) where
  nextId : ℕ
  heap : List HeapEntry
  timers : ℕ → Option (TimerState β)
  worker : Worker β

namespace Watchdog

variable {β : Type} (w : Watchdog β)

def new : Watchdog β := ⟨1, [], fun _ => none, .waiting⟩

-- A one-shot keeps its delay as the period that `reset` adds.
def addTimer (now delay : ℤ) (period : Option ℤ) (cb : β) : ℕ × Watchdog β :=
  let id := w.nextId
  let state : TimerState β := ⟨now + delay, period.getD delay, period.isSome, 0, cb⟩
  (id, { w with
    nextId := id + 1
    heap := ⟨state.deadline, id, state.generation⟩ :: w.heap
    timers := Function.update w.timers id (some state) })

def addOneshot (now delay : ℤ) (cb : β) : ℕ × Watchdog β := w.addTimer now delay none cb

def addRecurring (now period : ℤ) (cb : β) : ℕ × Watchdog β := w.addTimer now period (some period) cb

def reset (now : ℤ) (id : ℕ) : Bool × Watchdog β :=
  match w.timers id with
  | none => (false, w)
  | some state =>
    let state' : TimerState β := { state with deadline := now + state.period, generation := state.generation + 1 }
    (true, { w with
      heap := ⟨state'.deadline, id, state'.generation⟩ :: w.heap
      timers := Function.update w.timers id (some state') })

def cancel (id : ℕ) : Watchdog β := { w with timers := Function.update w.timers id none }

/-- The thread takes the top of the heap, which is due. Entries of equal deadlines come in any order. -/
def pop (now : ℤ) (entry : HeapEntry) : Option (Watchdog β) :=
  match w.worker with
  | .waiting =>
    if entry ∈ w.heap ∧ entry.deadline ≤ now ∧ ∀ e ∈ w.heap, entry.deadline ≤ e.deadline then
      let w' := { w with heap := w.heap.erase entry }
      match w.timers entry.id with
      | none => some w'
      | some state =>
        some (if state.generation ≠ entry.generation then w' else { w' with worker := .firing entry state })
    else none
  | _ => none

def call : Option (β × Watchdog β) :=
  match w.worker with
  | .firing entry state => some (state.cb, { w with worker := .fired entry state })
  | _ => none

def relock (now : ℤ) : Option (Watchdog β) :=
  match w.worker with
  | .fired entry state =>
    let w' := { w with worker := .waiting }
    some (if state.recurring then
      match w.timers entry.id with
      | none => w'
      | some state' =>
        if state'.generation = state.generation then
          let deadline := now + state.period
          { w' with
            heap := ⟨deadline, entry.id, state.generation⟩ :: w.heap
            timers := Function.update w.timers entry.id (some { state' with deadline := deadline }) }
        else w'
    else w'.cancel entry.id)
  | _ => none

variable {w} {w' : Watchdog β}

lemma pop_cases {now : ℤ} {entry : HeapEntry} (h : w.pop now entry = some w') :
    w.worker = .waiting ∧ entry ∈ w.heap ∧ entry.deadline ≤ now ∧
      ((∀ st, w.timers entry.id = some st → st.generation ≠ entry.generation) ∧
          w' = { w with heap := w.heap.erase entry } ∨
        ∃ st, w.timers entry.id = some st ∧ st.generation = entry.generation ∧
          w' = { w with heap := w.heap.erase entry, worker := .firing entry st }) := by
  rw [pop] at h
  split at h
  · rename_i hw
    split_ifs at h with hdue
    refine ⟨hw, hdue.1, hdue.2.1, ?_⟩
    split at h
    · rename_i hnone
      cases h
      refine .inl ⟨fun st hst => ?_, rfl⟩
      rw [hnone] at hst
      cases hst
    · rename_i st hst
      split_ifs at h with hgen
      · cases h
        refine .inl ⟨fun st' hst' => ?_, rfl⟩
        cases hst.symm.trans hst'
        exact hgen
      · cases h
        exact .inr ⟨st, hst, not_not.mp hgen, rfl⟩
  · cases h

lemma relock_cases {now : ℤ} (h : w.relock now = some w') : ∃ e st, w.worker = .fired e st ∧
    (st.recurring = false ∧ w' = ({ w with worker := .waiting } : Watchdog β).cancel e.id ∨
      st.recurring = true ∧ (∀ st', w.timers e.id = some st' → st'.generation ≠ st.generation) ∧
        w' = { w with worker := .waiting } ∨
      st.recurring = true ∧ ∃ st', w.timers e.id = some st' ∧ st'.generation = st.generation ∧
        w' = { w with
          worker := .waiting
          heap := ⟨now + st.period, e.id, st.generation⟩ :: w.heap
          timers := Function.update w.timers e.id (some { st' with deadline := now + st.period }) }) := by
  rw [relock] at h
  split at h
  · rename_i e st hw
    refine ⟨e, st, hw, ?_⟩
    cases hr : st.recurring with
    | false =>
      simp only [hr, Bool.false_eq_true, if_false, Option.some.injEq] at h
      exact .inl ⟨rfl, h.symm⟩
    | true =>
      simp only [hr, if_true, Option.some.injEq] at h
      refine .inr ?_
      split at h
      · rename_i hnone
        refine .inl ⟨rfl, fun st' hst' => ?_, h.symm⟩
        rw [hnone] at hst'
        cases hst'
      · rename_i st' hst'
        split_ifs at h with hgen
        · exact .inr ⟨rfl, st', hst', hgen, h.symm⟩
        · refine .inl ⟨rfl, fun st'' hst'' => ?_, h.symm⟩
          cases hst'.symm.trans hst''
          exact hgen
  · cases h

lemma pop_eq_some {now : ℤ} {entry : HeapEntry} (h : w.pop now entry = some w') :
    w'.nextId = w.nextId ∧ w'.timers = w.timers ∧
      (w'.worker = .waiting ∨ ∃ st, w'.worker = .firing entry st ∧ w.timers entry.id = some st) := by
  obtain ⟨hw, -, -, ⟨-, rfl⟩ | ⟨st, hst, -, rfl⟩⟩ := pop_cases h
  · exact ⟨rfl, rfl, .inl hw⟩
  · exact ⟨rfl, rfl, .inr ⟨st, rfl, hst⟩⟩

lemma call_eq_some {cb : β} (h : w.call = some (cb, w')) :
    ∃ e st, w.worker = .firing e st ∧ cb = st.cb ∧ w' = { w with worker := .fired e st } := by
  rw [call] at h
  split at h
  · rename_i e st hw
    cases h
    exact ⟨e, st, hw, rfl, rfl⟩
  · cases h

lemma relock_eq_some {now : ℤ} (h : w.relock now = some w') :
    ∃ e st, w.worker = .fired e st ∧
      (st.recurring = false → w' = ({ w with worker := .waiting } : Watchdog β).cancel e.id) := by
  obtain ⟨e, st, hw, hcases⟩ := relock_cases h
  refine ⟨e, st, hw, fun hr => ?_⟩
  rcases hcases with ⟨-, hw'⟩ | ⟨ht, -⟩ | ⟨ht, -⟩
  · exact hw'
  · exact absurd (hr.symm.trans ht) Bool.false_ne_true
  · exact absurd (hr.symm.trans ht) Bool.false_ne_true

end Watchdog

end CraftClient.Raft
