import CraftClient.Lib.Runs
import Mathlib.Algebra.BigOperators.Group.Finset.Basic
import Mathlib.Data.Fintype.Basic
import Mathlib.Tactic

/-! The session-manager thread that the proxies of a process share, and how a shutdown fences it. -/

namespace CraftClient.Net

open Runs

/-- A blocking operation of a proxy. An event that completes before its coroutine awaits it does not suspend the
coroutine, which then goes on where it is. -/
inductive HopPc (μ : Type)
  | idle
  | posted
  | ready
  | waiting
  | onMgr (left : List μ)
  | inline (left : List μ)
  | done
  deriving DecidableEq

inductive Job (ω δ : Type)
  | resume (o : ω)
  | fence (d : δ)
  deriving DecidableEq

inductive DrainPc
  | idle
  | stopped
  | fenced
  | asleep
  | hit
  | returned
  | skipped
  deriving DecidableEq

/-- The proxies `π`, their operations `ω` with the accesses to the proxy's connection that each is made of, and the
calls `δ` of `shutdown`. An access that waits for the peer without a deadline need not return. -/
structure Proxies (π ω δ μ σ : Type) where
  proxy : ω → π
  target : δ → π
  body : ω → List μ
  perform : μ → σ → σ
  returns : μ → Bool

/-- `asleep`: the thread is in its wait. `notifying` are the jobs whose poster is between the push and
`notify_one`; `posted` lists the operations in the order in which they were posted. -/
structure Mgr (π ω δ μ σ : Type) where
  jobs : List (Job ω δ)
  current : Option (Job ω δ)
  asleep : Bool
  notifying : List (Job ω δ)
  stop : π → Bool
  ops : ω → HopPc μ
  drains : δ → DrainPc
  conns : π → σ
  posted : List ω

inductive MgrAct (ω δ : Type)
  | hop (o : ω)
  | notify (j : Job ω δ)
  | await (o : ω)
  | sleep
  | spurious (d : Option δ)
  | take
  | run
  | work (o : ω)
  | finish (o : ω)
  | shutdown (d : δ)
  | fence (d : δ)
  | doze (d : δ)
  | leave (d : δ)
  | shutdownHere (d : δ)

variable {π ω δ μ σ : Type}

def Mgr.start (conns : π → σ) : Mgr π ω δ μ σ where
  jobs := []
  current := none
  asleep := false
  notifying := []
  stop _ := false
  ops _ := .idle
  drains _ := .idle
  conns := conns
  posted := []

def HopPc.isOnMgr : HopPc μ → Bool
  | .onMgr _ => true
  | _ => false

def Mgr.pending (s : Mgr π ω δ μ σ) : List (Job ω δ) := s.current.toList ++ s.jobs

section Step

variable [DecidableEq π] [DecidableEq ω] [DecidableEq δ]

namespace Mgr

variable (s : Mgr π ω δ μ σ)

def setOp (o : ω) (pc : HopPc μ) : Mgr π ω δ μ σ := { s with ops := Function.update s.ops o pc }

def setDrain (d : δ) (pc : DrainPc) : Mgr π ω δ μ σ := { s with drains := Function.update s.drains d pc }

def locked (c : Proxies π ω δ μ σ) (p : π) : Bool :=
  s.notifying.any fun
    | .resume o => c.proxy o = p
    | .fence _ => false

def push (j : Job ω δ) : Mgr π ω δ μ σ := { s with jobs := s.jobs ++ [j], notifying := s.notifying ++ [j] }

def hop (c : Proxies π ω δ μ σ) (o : ω) : Mgr π ω δ μ σ :=
  if s.stop (c.proxy o) then s.setOp o .ready
  else { (s.setOp o .posted).push (.resume o) with posted := s.posted ++ [o] }

def notify (j : Job ω δ) : Mgr π ω δ μ σ := { s with notifying := s.notifying.erase j, asleep := false }

def access (c : Proxies π ω δ μ σ) (o : ω) (m : μ) : Mgr π ω δ μ σ :=
  { s with conns := Function.update s.conns (c.proxy o) (c.perform m (s.conns (c.proxy o))) }

def setStop (c : Proxies π ω δ μ σ) (d : δ) : Mgr π ω δ μ σ :=
  { s with stop := Function.update s.stop (c.target d) true }

end Mgr

def mgrStep (c : Proxies π ω δ μ σ) (s : Mgr π ω δ μ σ) : MgrAct ω δ → Option (Mgr π ω δ μ σ)
  | .hop o =>
    match s.ops o with
    | .idle => if s.locked c (c.proxy o) then none else some (s.hop c o)
    | _ => none
  | .notify j => if j ∈ s.notifying then some (s.notify j) else none
  | .await o =>
    if .resume o ∈ s.notifying then none
    else match s.ops o with
      | .posted => some (s.setOp o .waiting)
      | .ready => some (s.setOp o (.inline (c.body o)))
      | _ => none
  | .sleep =>
    match s.asleep, s.current, s.jobs with
    | false, none, [] => some { s with asleep := true }
    | _, _, _ => none
  | .spurious none => if s.asleep then some { s with asleep := false } else none
  | .spurious (some d) => if s.drains d = .asleep then some (s.setDrain d .fenced) else none
  | .take =>
    match s.asleep, s.current, s.jobs with
    | false, none, j :: js => some { s with current := some j, jobs := js }
    | _, _, _ => none
  | .run =>
    match s.current with
    | some (.fence d) => some { s.setDrain d .hit with current := none }
    | some (.resume o) =>
      match s.ops o with
      | .posted => some { s.setOp o .ready with current := none }
      | .waiting => some (s.setOp o (.onMgr (c.body o)))
      | _ => none
    | none => none
  | .work o =>
    match s.ops o with
    | .onMgr (m :: ms) => if c.returns m then some ((s.access c o m).setOp o (.onMgr ms)) else none
    | .inline (m :: ms) => if c.returns m then some ((s.access c o m).setOp o (.inline ms)) else none
    | _ => none
  | .finish o =>
    match s.ops o with
    | .onMgr [] => some { s.setOp o .done with current := none }
    | .inline [] => some (s.setOp o .done)
    | _ => none
  | .shutdown d =>
    if s.drains d = .idle ∧ s.locked c (c.target d) = false then some ((s.setStop c d).setDrain d .stopped) else none
  | .fence d => if s.drains d = .stopped then some ((s.setDrain d .fenced).push (.fence d)) else none
  | .doze d => if s.drains d = .fenced ∧ .fence d ∉ s.notifying then some (s.setDrain d .asleep) else none
  | .leave d => if s.drains d = .hit ∧ .fence d ∉ s.notifying then some (s.setDrain d .returned) else none
  -- the job that runs drops the proxy: the fence is left out
  | .shutdownHere d =>
    match s.current with
    | some (.resume o) =>
      if s.drains d = .idle ∧ s.locked c (c.target d) = false ∧ (s.ops o).isOnMgr = true then
        some ((s.setStop c d).setDrain d .skipped)
      else none
    | _ => none

inductive MgrMove (c : Proxies π ω δ μ σ) (s : Mgr π ω δ μ σ) : MgrAct ω δ → Mgr π ω δ μ σ → Prop
  | hopInline {o : ω} (h : s.ops o = .idle) (hstop : s.stop (c.proxy o) = true) :
      MgrMove c s (.hop o) (s.setOp o .ready)
  | hopPost {o : ω} (h : s.ops o = .idle) (hstop : s.stop (c.proxy o) = false) :
      MgrMove c s (.hop o) { (s.setOp o .posted).push (.resume o) with posted := s.posted ++ [o] }
  | notify {j : Job ω δ} (hj : j ∈ s.notifying) : MgrMove c s (.notify j) (s.notify j)
  | awaitPosted {o : ω} (h : s.ops o = .posted) : MgrMove c s (.await o) (s.setOp o .waiting)
  | awaitReady {o : ω} (h : s.ops o = .ready) : MgrMove c s (.await o) (s.setOp o (.inline (c.body o)))
  | sleep (ha : s.asleep = false) (hcur : s.current = none) (hjobs : s.jobs = []) :
      MgrMove c s .sleep { s with asleep := true }
  | spurious (ha : s.asleep = true) : MgrMove c s (.spurious none) { s with asleep := false }
  | spuriousDrain {d : δ} (h : s.drains d = .asleep) : MgrMove c s (.spurious (some d)) (s.setDrain d .fenced)
  | take {j : Job ω δ} {js : List (Job ω δ)} (ha : s.asleep = false) (hcur : s.current = none)
      (hjobs : s.jobs = j :: js) : MgrMove c s .take { s with current := some j, jobs := js }
  | runFence {d : δ} (hcur : s.current = some (.fence d)) :
      MgrMove c s .run { s.setDrain d .hit with current := none }
  | runEarly {o : ω} (hcur : s.current = some (.resume o)) (h : s.ops o = .posted) :
      MgrMove c s .run { s.setOp o .ready with current := none }
  | runWaiting {o : ω} (hcur : s.current = some (.resume o)) (h : s.ops o = .waiting) :
      MgrMove c s .run (s.setOp o (.onMgr (c.body o)))
  | workMgr {o : ω} {m : μ} {ms : List μ} (h : s.ops o = .onMgr (m :: ms)) :
      MgrMove c s (.work o) ((s.access c o m).setOp o (.onMgr ms))
  | workInline {o : ω} {m : μ} {ms : List μ} (h : s.ops o = .inline (m :: ms)) :
      MgrMove c s (.work o) ((s.access c o m).setOp o (.inline ms))
  | finishMgr {o : ω} (h : s.ops o = .onMgr []) : MgrMove c s (.finish o) { s.setOp o .done with current := none }
  | finishInline {o : ω} (h : s.ops o = .inline []) : MgrMove c s (.finish o) (s.setOp o .done)
  | shutdown {d : δ} (h : s.drains d = .idle) : MgrMove c s (.shutdown d) ((s.setStop c d).setDrain d .stopped)
  | fence {d : δ} (h : s.drains d = .stopped) : MgrMove c s (.fence d) ((s.setDrain d .fenced).push (.fence d))
  | doze {d : δ} (h : s.drains d = .fenced) : MgrMove c s (.doze d) (s.setDrain d .asleep)
  | leave {d : δ} (h : s.drains d = .hit) : MgrMove c s (.leave d) (s.setDrain d .returned)
  | shutdownHere {d : δ} {o : ω} (hcur : s.current = some (.resume o)) (h : s.drains d = .idle)
      (hrun : (s.ops o).isOnMgr = true) : MgrMove c s (.shutdownHere d) ((s.setStop c d).setDrain d .skipped)

variable {c : Proxies π ω δ μ σ} {s t : Mgr π ω δ μ σ} {a : MgrAct ω δ}

lemma mgrStep_move (h : mgrStep c s a = some t) : MgrMove c s a t := by
  cases a with
  | hop o =>
    simp only [mgrStep] at h
    split at h
    case h_2 => cases h
    case h_1 ho =>
      split_ifs at h
      cases h
      rw [Mgr.hop]
      split_ifs with hs
      · exact .hopInline ho hs
      · exact .hopPost ho (Bool.eq_false_iff.mpr hs)
  | notify j =>
    simp only [mgrStep] at h
    split_ifs at h with hj
    cases h
    exact .notify hj
  | await o =>
    simp only [mgrStep] at h
    split_ifs at h
    split at h <;> rename_i ho <;> cases h
    · exact .awaitPosted ho
    · exact .awaitReady ho
  | finish o =>
    simp only [mgrStep] at h
    split at h <;> rename_i ho <;> cases h
    · exact .finishMgr ho
    · exact .finishInline ho
  | work o =>
    simp only [mgrStep] at h
    split at h
    case h_1 ho =>
      split_ifs at h
      cases h
      exact .workMgr ho
    case h_2 ho =>
      split_ifs at h
      cases h
      exact .workInline ho
    case h_3 => cases h
  | sleep =>
    simp only [mgrStep] at h
    split at h <;> rename_i ha hcur hjobs <;> cases h
    exact .sleep ha hcur hjobs
  | spurious d =>
    cases d with
    | none =>
      simp only [mgrStep] at h
      split_ifs at h with ha
      cases h
      exact .spurious ha
    | some d =>
      simp only [mgrStep] at h
      split_ifs at h with hd
      cases h
      exact .spuriousDrain hd
  | take =>
    simp only [mgrStep] at h
    split at h <;> rename_i ha hcur hjobs <;> cases h
    exact .take ha hcur hjobs
  | run =>
    simp only [mgrStep] at h
    split at h <;> rename_i hcur
    · cases h
      exact .runFence hcur
    · split at h <;> rename_i ho <;> cases h
      · exact .runEarly hcur ho
      · exact .runWaiting hcur ho
    · cases h
  | fence d =>
    simp only [mgrStep] at h
    split_ifs at h with hd
    cases h
    exact .fence hd
  | shutdown d | doze d | leave d =>
    simp only [mgrStep] at h
    split_ifs at h with hd
    cases h
    constructor
    exact hd.1
  | shutdownHere d =>
    simp only [mgrStep] at h
    split at h
    case h_2 => cases h
    case h_1 o hcur =>
      split_ifs at h with hd
      cases h
      exact .shutdownHere hcur hd.1 hd.2.2

end Step

def HopPc.isQueued : HopPc μ → Bool
  | .posted | .waiting | .onMgr _ => true
  | _ => false

def DrainPc.isFenced : DrainPc → Bool
  | .fenced | .asleep => true
  | _ => false

def Ahead (c : Proxies π ω δ μ σ) : Job ω δ → Job ω δ → Prop
  | .fence d, .resume o => c.proxy o ≠ c.target d
  | _, _ => True

structure MgrInv (c : Proxies π ω δ μ σ) (s : Mgr π ω δ μ σ) : Prop where
  nodup : s.pending.Nodup
  resume : ∀ o, .resume o ∈ s.pending ↔ (s.ops o).isQueued = true
  fence : ∀ d, .fence d ∈ s.pending ↔ (s.drains d).isFenced = true
  mgr : ∀ o, (s.ops o).isOnMgr = true → s.current = some (.resume o)
  stop : ∀ d, s.drains d ≠ .idle → s.stop (c.target d) = true
  order : s.pending.Pairwise (Ahead c)
  drained : ∀ d, s.drains d = .hit ∨ s.drains d = .returned → ∀ o, .resume o ∈ s.pending → c.proxy o ≠ c.target d
  called : ∀ o ∈ s.posted, s.ops o ≠ .idle
  once : s.posted.Nodup
  -- no wake-up is lost: whoever pushed a job behind the back of the thread is still to notify it
  woken : s.asleep = true → s.current = none ∧ (s.jobs = [] ∨ s.notifying ≠ [])

section Invariant

variable {c : Proxies π ω δ μ σ} {s : Mgr π ω δ μ σ} {o : ω} {d : δ} {pc : HopPc μ}

lemma Mgr.eq_of_current {o' : ω} (h : s.current = some (.resume o)) (h' : s.current = some (.resume o')) : o = o' :=
  Job.resume.inj (Option.some.inj (h.symm.trans h'))

lemma mgrInv_start (conns : π → σ) : MgrInv c (.start conns) where
  nodup := List.nodup_nil
  resume o := by simp [Mgr.start, Mgr.pending, HopPc.isQueued]
  fence d := by simp [Mgr.start, Mgr.pending, DrainPc.isFenced]
  mgr o h := by cases h
  stop d h := absurd rfl h
  order := List.Pairwise.nil
  drained d h := by simp [Mgr.start] at h
  called o h := by cases h
  once := List.nodup_nil
  woken h := by cases h

lemma Mgr.pending_of_current {j : Job ω δ} (h : s.current = some j) : s.pending = j :: s.jobs := by
  rw [Mgr.pending, h]
  rfl

lemma MgrInv.access [DecidableEq π] {m : μ} (h : MgrInv c s) : MgrInv c (s.access c o m) := { h with }

lemma MgrInv.awake (h : MgrInv c s) {j : Job ω δ} (hcur : s.current = some j) : s.asleep = false := by
  refine Bool.eq_false_iff.mpr fun ha => ?_
  cases hcur.symm.trans (h.woken ha).1

lemma MgrInv.take {j : Job ω δ} {js : List (Job ω δ)} (h : MgrInv c s) (ha : s.asleep = false)
    (hcur : s.current = none) (hjobs : s.jobs = j :: js) :
    MgrInv c { s with current := some j, jobs := js } := by
  have hp : s.pending = ({ s with current := some j, jobs := js } : Mgr π ω δ μ σ).pending := by
    rw [Mgr.pending, hcur, hjobs]
    rfl
  obtain ⟨hnodup, hresume, hfence, hmgr, hstop, horder, hdrained, hcalled, honce, -⟩ := h
  rw [hp] at hnodup hresume hfence horder hdrained
  refine ⟨hnodup, hresume, hfence, fun o ho => ?_, hstop, horder, hdrained, hcalled, honce, fun hs => ?_⟩
  · cases hcur.symm.trans (hmgr o ho)
  · cases ha.symm.trans hs

section Ops

variable [DecidableEq ω]

lemma MgrInv.setOp (h : MgrInv c s) (hq : pc.isQueued = (s.ops o).isQueued)
    (hm : pc.isOnMgr = false ∨ s.current = some (.resume o)) (hpc : pc ≠ .idle) : MgrInv c (s.setOp o pc) where
  nodup := h.nodup
  resume o' := by
    refine (h.resume o').trans ?_
    simp only [Mgr.setOp, Function.update_apply]
    split_ifs with ho
    · rw [ho, hq]
    · rfl
  fence := h.fence
  mgr o' := by
    simp only [Mgr.setOp, Function.update_apply]
    split_ifs with ho
    · exact ho ▸ fun hon => hm.resolve_left (by simp [hon])
    · exact h.mgr o'
  stop := h.stop
  order := h.order
  drained := h.drained
  called o' ho' := by
    simp only [Mgr.setOp, Function.update_apply]
    split_ifs
    · exact hpc
    · exact h.called o' ho'
  once := h.once
  woken := h.woken

lemma MgrInv.post (h : MgrInv c s) (ho : s.ops o = .idle) (hstop : s.stop (c.proxy o) = false) :
    MgrInv c { (s.setOp o .posted).push (.resume o) with posted := s.posted ++ [o] } := by
  have hp : ({ (s.setOp o .posted).push (.resume o) with posted := s.posted ++ [o] } :
      Mgr π ω δ μ σ).pending = s.pending ++ [.resume o] := (List.append_assoc ..).symm
  have hnot : .resume o ∉ s.pending := by
    rw [h.resume, ho]
    exact Bool.false_ne_true
  have hne : ∀ d, s.drains d ≠ .idle → c.proxy o ≠ c.target d := by
    intro d hd heq
    rw [heq, h.stop d hd] at hstop
    cases hstop
  refine ⟨?_, fun o' => ?_, fun d => ?_, fun o' => ?_, h.stop, ?_, fun d hd o' => ?_, fun o' => ?_, ?_, fun ha => ?_⟩
  · rw [hp]
    exact List.concat_eq_append ▸ h.nodup.concat hnot
  · rw [hp, List.mem_append, h.resume, List.mem_singleton]
    simp only [Mgr.push, Mgr.setOp, Function.update_apply, Job.resume.injEq]
    split_ifs with heq
    · simp [heq, HopPc.isQueued]
    · simp [heq]
  · rw [hp, List.mem_append, h.fence]
    simp [Mgr.push, Mgr.setOp]
  · simp only [Mgr.push, Mgr.setOp, Function.update_apply]
    split_ifs with heq
    · intro hm
      cases hm
    · exact h.mgr o'
  · rw [hp, List.pairwise_append]
    refine ⟨h.order, List.pairwise_singleton _ _, fun j hj k hk => ?_⟩
    rw [List.mem_singleton.mp hk]
    cases j with
    | resume => trivial
    | fence d =>
      refine hne d fun hidle => ?_
      have hf := (h.fence d).mp hj
      rw [hidle] at hf
      cases hf
  · rw [hp, List.mem_append, List.mem_singleton, Job.resume.injEq]
    rintro (ho' | rfl)
    · exact h.drained d hd o' ho'
    · exact hne d (by rcases hd with hd | hd <;> simp only [Mgr.push, Mgr.setOp] at hd <;> simp [hd])
  · simp only [Mgr.push, Mgr.setOp, Function.update_apply, List.mem_append, List.mem_singleton]
    split_ifs with heq
    · intro _ hidle
      cases hidle
    · exact fun hmem => h.called o' (hmem.resolve_right heq)
  · have honce := h.once.concat fun hmem => h.called o hmem ho
    rwa [List.concat_eq_append] at honce
  · exact ⟨(h.woken ha).1, Or.inr (List.concat_ne_nil _ _)⟩

lemma MgrInv.popOp (h : MgrInv c s) (hcur : s.current = some (.resume o)) (hq : pc.isQueued = false)
    (hpc : pc ≠ .idle) : MgrInv c { s.setOp o pc with current := none } := by
  have hp := Mgr.pending_of_current hcur
  have hnodup := hp ▸ h.nodup
  have horder := hp ▸ h.order
  have hmem : ∀ j, j ∈ s.jobs → j ∈ s.pending := fun j hj => hp ▸ List.mem_cons_of_mem _ hj
  refine ⟨hnodup.of_cons, fun o' => ?_, fun d => ?_, fun o' hm => ?_, h.stop, horder.of_cons, fun d hd o' ho' => ?_,
    fun o' ho' => ?_, h.once, fun ha => absurd (ha.symm.trans (h.awake hcur)) (by simp)⟩
  · simp only [Mgr.pending, Mgr.setOp, Option.toList_none, List.nil_append, Function.update_apply]
    split_ifs with heq
    · rw [heq, hq]
      simpa using (List.nodup_cons.mp hnodup).1
    · rw [← h.resume, hp, List.mem_cons, Job.resume.injEq]
      simp [heq]
  · refine Iff.trans ?_ (h.fence d)
    rw [hp]
    simp [Mgr.pending, Mgr.setOp]
  · simp only [Mgr.setOp, Function.update_apply] at hm
    split_ifs at hm with heq
    · cases pc <;> simp [HopPc.isQueued, HopPc.isOnMgr] at hq hm
    · exact absurd (Mgr.eq_of_current (h.mgr o' hm) hcur) heq
  · exact h.drained d hd o' (hmem _ ho')
  · simp only [Mgr.setOp, Function.update_apply]
    split_ifs
    · exact hpc
    · exact h.called o' ho'

end Ops

section Drains

variable [DecidableEq δ]

lemma MgrInv.hit (h : MgrInv c s) (hcur : s.current = some (.fence d)) :
    MgrInv c { s.setDrain d .hit with current := none } := by
  have hp := Mgr.pending_of_current hcur
  have hnodup := hp ▸ h.nodup
  have horder := hp ▸ h.order
  have hmem : ∀ j, j ∈ s.jobs → j ∈ s.pending := fun j hj => hp ▸ List.mem_cons_of_mem _ hj
  have hd := (h.fence d).mp (hp ▸ List.mem_cons_self)
  refine ⟨hnodup.of_cons, fun o => ?_, fun d' => ?_, fun o hm => ?_, fun d' hd' => ?_, horder.of_cons,
    fun d' hd' o ho => ?_, h.called, h.once, fun ha => absurd (ha.symm.trans (h.awake hcur)) (by simp)⟩
  · refine Iff.trans ?_ (h.resume o)
    rw [hp]
    simp [Mgr.pending, Mgr.setDrain]
  · simp only [Mgr.pending, Mgr.setDrain, Option.toList_none, List.nil_append, Function.update_apply]
    split_ifs with heq
    · simpa [heq, DrainPc.isFenced] using (List.nodup_cons.mp hnodup).1
    · rw [← h.fence, hp, List.mem_cons, Job.fence.injEq]
      simp [heq]
  · cases hcur.symm.trans (h.mgr o hm)
  · simp only [Mgr.setDrain, Function.update_apply] at hd'
    split_ifs at hd' with heq
    · refine h.stop d' fun hidle => ?_
      rw [← heq, hidle] at hd
      cases hd
    · exact h.stop d' hd'
  · simp only [Mgr.setDrain, Function.update_apply] at hd'
    split_ifs at hd' with heq
    · subst heq
      exact (List.pairwise_cons.mp horder).1 _ ho
    · exact h.drained d' hd' o (hmem _ ho)

lemma MgrInv.fenced (h : MgrInv c s) (hd : s.drains d = .stopped) :
    MgrInv c ((s.setDrain d .fenced).push (.fence d)) := by
  have hp : ((s.setDrain d .fenced).push (.fence d)).pending = s.pending ++ [.fence d] := (List.append_assoc ..).symm
  have hnot : .fence d ∉ s.pending := by
    rw [h.fence, hd]
    exact Bool.false_ne_true
  refine ⟨?_, fun o => ?_, fun d' => ?_, h.mgr, fun d' hd' => ?_, ?_, fun d' hd' o => ?_, h.called, h.once,
    fun ha => ⟨(h.woken ha).1, Or.inr (List.concat_ne_nil _ _)⟩⟩
  · rw [hp]
    exact List.concat_eq_append ▸ h.nodup.concat hnot
  · rw [hp, List.mem_append, h.resume]
    simp [Mgr.push, Mgr.setDrain]
  · rw [hp, List.mem_append, h.fence, List.mem_singleton]
    simp only [Mgr.push, Mgr.setDrain, Function.update_apply, Job.fence.injEq]
    split_ifs with heq
    · simp [heq, DrainPc.isFenced]
    · simp [heq]
  · simp only [Mgr.push, Mgr.setDrain, Function.update_apply] at hd'
    split_ifs at hd' with heq
    · exact h.stop d' (by rw [heq, hd]; exact DrainPc.noConfusion)
    · exact h.stop d' hd'
  · rw [hp, List.pairwise_append]
    refine ⟨h.order, List.pairwise_singleton _ _, fun j _ k hk => ?_⟩
    rw [List.mem_singleton.mp hk]
    cases j <;> trivial
  · rw [hp, List.mem_append, List.mem_singleton]
    rintro (ho | ho)
    · simp only [Mgr.push, Mgr.setDrain, Function.update_apply] at hd'
      split_ifs at hd' with heq
      · simp at hd'
      · exact h.drained d' hd' o ho
    · cases ho

lemma MgrInv.setDrain {stop : π → Bool} {pc : DrainPc} (h : MgrInv c s) (hpc : pc.isFenced = (s.drains d).isFenced)
    (hstop : ∀ p, s.stop p = true → stop p = true) (htarget : stop (c.target d) = true)
    (hret : pc = .hit ∨ pc = .returned → s.drains d = .hit) :
    MgrInv c { s.setDrain d pc with stop := stop } := by
  refine ⟨h.nodup, h.resume, fun d' => ?_, h.mgr, fun d' hd' => ?_, h.order, fun d' hd' => ?_, h.called, h.once,
    h.woken⟩
  · refine (h.fence d').trans ?_
    simp only [Mgr.setDrain, Function.update_apply]
    split_ifs with heq
    · rw [heq, hpc]
    · rfl
  · simp only [Mgr.setDrain, Function.update_apply] at hd'
    split_ifs at hd' with heq
    · exact heq ▸ htarget
    · exact hstop _ (h.stop d' hd')
  · simp only [Mgr.setDrain, Function.update_apply] at hd'
    split_ifs at hd' with heq
    · exact h.drained d' (Or.inl (heq ▸ hret hd'))
    · exact h.drained d' hd'

end Drains

lemma MgrInv.step [DecidableEq π] [DecidableEq ω] [DecidableEq δ] {t : Mgr π ω δ μ σ} {a : MgrAct ω δ} (h : MgrInv c s)
    (hs : mgrStep c s a = some t) : MgrInv c t := by
  cases mgrStep_move hs with
  | hopInline ho | awaitPosted ho | awaitReady ho | finishInline ho =>
    exact h.setOp (by rw [ho]; rfl) (Or.inl rfl) (by simp)
  | hopPost ho hstop => exact h.post ho hstop
  | notify | spurious => exact { h with woken := fun ha => absurd ha Bool.false_ne_true }
  | sleep _ hcur hjobs => exact { h with woken := fun _ => ⟨hcur, Or.inl hjobs⟩ }
  | take ha hcur hjobs => exact h.take ha hcur hjobs
  | runFence hcur => exact h.hit hcur
  | runEarly hcur => exact h.popOp hcur rfl (by simp)
  | runWaiting hcur ho => exact h.setOp (by rw [ho]; rfl) (Or.inr hcur) (by simp)
  | workMgr ho =>
    have hcur := h.mgr _ (by rw [ho]; rfl)
    exact h.access.setOp (by simp only [Mgr.access, ho]; rfl) (Or.inr hcur) (by simp)
  | workInline ho =>
    exact h.access.setOp (by simp only [Mgr.access, ho]; rfl) (Or.inl rfl) (by simp)
  | finishMgr ho => exact h.popOp (h.mgr _ (by rw [ho]; rfl)) rfl (by simp)
  | shutdown hd | shutdownHere _ hd =>
    refine h.setDrain (by rw [hd]; rfl) (fun p hp => ?_) (Function.update_self ..) (by simp)
    simp only [Mgr.setStop, Function.update_apply]
    split_ifs
    · rfl
    · exact hp
  | fence hd => exact h.fenced hd
  | doze hd | spuriousDrain hd =>
    exact h.setDrain (by rw [hd]; rfl) (fun p hp => hp) (h.stop _ (by simp [hd])) (by simp)
  | leave hd => exact h.setDrain (by rw [hd]; rfl) (fun p hp => hp) (h.stop _ (by simp [hd])) fun _ => hd

end Invariant

/-- The thread gets to a job when the coroutine behind it is suspended already. -/
def MgrAct.Suspended (s : Mgr π ω δ μ σ) : MgrAct ω δ → Prop
  | .run => ∀ o, s.current = some (.resume o) → s.ops o ≠ .posted
  | _ => True

/-- In addition, no operation of a proxy starts once its shutdown has. -/
def MgrAct.Orderly (c : Proxies π ω δ μ σ) (s : Mgr π ω δ μ σ) : MgrAct ω δ → Prop
  | .hop o => s.stop (c.proxy o) = false
  | a => a.Suspended s

section Drained

variable {c : Proxies π ω δ μ σ} {s t : Mgr π ω δ μ σ} {o : ω} {d : δ} {a : MgrAct ω δ}

def PostedInert (s : Mgr π ω δ μ σ) : Prop := ∀ o ∈ s.posted, (s.ops o).isQueued = true ∨ s.ops o = .done

lemma PostedInert.setOp [DecidableEq ω] {pc : HopPc μ} (h : PostedInert s)
    (hpc : o ∈ s.posted → pc.isQueued = true ∨ pc = .done) : PostedInert (s.setOp o pc) := by
  intro o' ho'
  simp only [Mgr.setOp, Function.update_apply]
  split_ifs with heq
  · exact hpc (heq ▸ ho')
  · exact h o' ho'

lemma PostedInert.not_mem (h : PostedInert s) (hq : (s.ops o).isQueued = false) (hd : s.ops o ≠ .done) : o ∉ s.posted :=
  fun ho => (h o ho).elim (fun hq' => by simp [hq] at hq') hd

variable [DecidableEq π] [DecidableEq ω] [DecidableEq δ]

lemma PostedInert.step (h : PostedInert s) (hi : MgrInv c s) (hok : a.Suspended s) (hs : mgrStep c s a = some t) :
    PostedInert t := by
  cases mgrStep_move hs with
  | hopInline ho => exact h.setOp fun hmem => absurd ho (hi.called _ hmem)
  | hopPost ho =>
    intro o' ho'
    simp only [Mgr.push, Mgr.setOp, Function.update_apply]
    split_ifs with heq
    · exact Or.inl rfl
    · refine h o' ((List.mem_append.mp ho').resolve_right fun hmem => heq (List.mem_singleton.mp hmem))
  | awaitPosted | runWaiting | workMgr => exact h.setOp fun _ => Or.inl rfl
  | awaitReady ho | workInline ho =>
    exact h.setOp fun hmem => absurd hmem (h.not_mem (by rw [ho]; rfl) (by simp [ho]))
  | runEarly hcur ho => exact absurd ho (hok _ hcur)
  | finishMgr | finishInline => exact h.setOp fun _ => Or.inr rfl
  | notify | sleep | spurious | spuriousDrain | take | runFence | shutdown | fence | doze | leave | shutdownHere =>
    exact h

lemma MgrInv.returned_step (h : MgrInv c s) (hd : s.drains d = .returned) (hs : mgrStep c s a = some t) :
    t.drains d = .returned := by
  have hkeep : ∀ {d' : δ} {pc : DrainPc}, s.drains d' ≠ .returned → Function.update s.drains d' pc d = .returned := by
    intro d' pc hne
    rw [Function.update_of_ne, hd]
    rintro rfl
    exact hne hd
  cases mgrStep_move hs with
  | @runFence d' hcur =>
    have hd' := (h.fence d').mp (Mgr.pending_of_current hcur ▸ List.mem_cons_self)
    refine hkeep fun hret => ?_
    rw [hret] at hd'
    cases hd'
  | shutdown h | fence h | doze h | leave h | spuriousDrain h => exact hkeep (by simp [h])
  | shutdownHere _ h => exact hkeep (by simp [h])
  | _ => exact hd

end Drained

variable [DecidableEq π] [DecidableEq ω] [DecidableEq δ]

/-- Whatever else goes on, once a shutdown that was called off the thread has returned, the operations of its proxy
that had been posted are done, and from then on no operation of the proxy is ever on the thread or on its way. -/
theorem shutdown_drains {c : Proxies π ω δ μ σ} {conns : π → σ} {s : Mgr π ω δ μ σ} {d : δ}
    (h : Reach (mgrStep c) (fun s a => a.Suspended s) (.start conns) s) (hd : s.drains d = .returned) :
    (∀ o ∈ s.posted, c.proxy o = c.target d → s.ops o = .done) ∧
      ∀ t, Reach (mgrStep c) free s t → ∀ o, c.proxy o = c.target d → (t.ops o).isQueued = false := by
  have hi : MgrInv c s ∧ PostedInert s := by
    refine h.invariant (P := fun s => MgrInv c s ∧ PostedInert s) ⟨mgrInv_start conns, fun o ho => by cases ho⟩ ?_
    intro s a t hst hok hs
    exact ⟨hst.1.step hs, hst.2.step hst.1 hok hs⟩
  have hafter : ∀ t, MgrInv c t → t.drains d = .returned → ∀ o, c.proxy o = c.target d →
      (t.ops o).isQueued = false := by
    intro t ht hdt o ho
    refine Bool.eq_false_iff.mpr fun hq => ?_
    exact ht.drained d (Or.inr hdt) o ((ht.resume o).mpr hq) ho
  refine ⟨fun o ho hp => ?_, fun t ht => ?_⟩
  · refine (hi.2 o ho).resolve_left ?_
    rw [hafter s hi.1 hd o hp]
    exact Bool.false_ne_true
  · have hit : MgrInv c t ∧ t.drains d = .returned := by
      refine ht.invariant (P := fun t => MgrInv c t ∧ t.drains d = .returned) ⟨hi.1, hd⟩ ?_
      intro s a t hst _ hs
      exact ⟨hst.1.step hs, hst.1.returned_step hst.2 hs⟩
    exact hafter t hit.1 hit.2

section Runs

def oneProxy : Proxies Unit (Fin 2) Unit ℕ (List ℕ) where
  proxy _ := ()
  target _ := ()
  body o := [o.val]
  perform m x := x ++ [m]
  returns _ := true

abbrev OneMgr := Mgr Unit (Fin 2) Unit ℕ (List ℕ)

def oneMgr : OneMgr := .start fun _ => []

instance decidableSuspended (s : OneMgr) : ∀ a : MgrAct (Fin 2) Unit, Decidable (a.Suspended s)
  | .run => inferInstanceAs (Decidable (∀ o, s.current = some (.resume o) → s.ops o ≠ .posted))
  | .hop _ | .notify _ | .await _ | .sleep | .spurious _ | .take | .work _ | .finish _ | .shutdown _ | .fence _
  | .doze _ | .leave _ | .shutdownHere _ => .isTrue trivial

def drainedActs : List (MgrAct (Fin 2) Unit) :=
  [.sleep, .hop 0, .notify (.resume 0), .hop 1, .await 0, .take, .run, .notify (.resume 1), .shutdown (), .await 1,
    .work 0, .fence (), .notify (.fence ()), .finish 0, .doze (), .take, .run, .work 1, .finish 1, .take, .run,
    .leave ()]

theorem shutdown_drains_twoOps : ∃ s : OneMgr,
    Reach (mgrStep oneProxy) (fun s a => a.Suspended s) oneMgr s ∧ (s.drains () = .returned ∧ s.posted = [0, 1]) ∧
      (∀ o ∈ s.posted, oneProxy.proxy o = oneProxy.target () → s.ops o = .done) ∧
      ∀ t, Reach (mgrStep oneProxy) free s t → ∀ o, oneProxy.proxy o = oneProxy.target () →
        (t.ops o).isQueued = false := by
  obtain ⟨s, hs, hp⟩ := Reach.exists_of_exec (mgrStep oneProxy) (fun s a => a.Suspended s) oneMgr drainedActs
    (fun s => decide (s.drains () = .returned ∧ s.posted = [0, 1])) (by decide)
  have hend := of_decide_eq_true hp
  exact ⟨s, hs, hend, shutdown_drains hs hend.1⟩

theorem shutdown_returns_before_op : ∃ s : OneMgr, Reach (mgrStep oneProxy) free oneMgr s ∧
    s.drains () = .returned ∧ 0 ∈ s.posted ∧ s.ops 0 = .inline [0] := by
  obtain ⟨s, hs, hp⟩ := Reach.exists_of_exec (mgrStep oneProxy) free oneMgr
    [.hop 0, .take, .run, .notify (.resume 0), .shutdown (), .fence (), .take, .run, .notify (.fence ()), .leave (),
      .await 0]
    (fun s => decide (s.drains () = .returned ∧ 0 ∈ s.posted ∧ s.ops 0 = .inline [0])) (by decide)
  exact ⟨s, hs, of_decide_eq_true hp⟩

end Runs

end CraftClient.Net
