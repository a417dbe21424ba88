import CraftClient.Tracker.Frontier
import CraftClient.Tracker.Window

namespace CraftClient.Tracker

open Runs

variable {t t' t'' : DlsnTracker} {addr len : UInt64} {pc pc' : ComputePc} {p q : PlanOutcome}

section Compute

def computeRun (addr len : UInt64) : ℕ → DlsnTracker → ComputePc → ComputePc ⊕ PlanOutcome
  | 0, _, pc => .inl pc
  | n + 1, t, pc =>
    match computeStep t addr len pc with
    | (t', .inl pc') => computeRun addr len n t' pc'
    | (_, .inr p) => .inr p

lemma computeRun_add {n : ℕ} (k : ℕ) (h : computeRun addr len n t pc = .inr p) :
    computeRun addr len (n + k) t pc = .inr p := by
  induction n generalizing t pc with
  | zero => cases h
  | succ n ih =>
    rw [Nat.add_right_comm]
    simp only [computeRun] at h ⊢
    split at h
    · exact ih h
    · exact h

lemma computeRun_unique {n m : ℕ} (h : computeRun addr len n t pc = .inr p)
    (h' : computeRun addr len m t pc = .inr q) : p = q := by
  have hp := computeRun_add m h
  have hq := computeRun_add n h'
  rw [Nat.add_comm, hq] at hp
  exact (Sum.inr.inj hp).symm

structure Extends (t t' : DlsnTracker) : Prop where
  frontier : t'.frontier = t.frontier
  acked : t'.highestAcked = t.highestAcked
  scanCap : t'.scanCap = t.scanCap
  lbaSize : t'.lbaSize = t.lbaSize
  base : t'.tracker.base = t.tracker.base
  completed : t'.tracker.completed = t.tracker.completed
  data : ∀ d, (t.tracker.data d).isSome → t'.tracker.data d = t.tracker.data d

namespace Extends

lemma refl (t : DlsnTracker) : Extends t t := ⟨rfl, rfl, rfl, rfl, rfl, rfl, fun _ _ => rfl⟩

lemma trans (h : Extends t t') (h' : Extends t' t'') : Extends t t'' where
  frontier := h'.frontier.trans h.frontier
  acked := h'.acked.trans h.acked
  scanCap := h'.scanCap.trans h.scanCap
  lbaSize := h'.lbaSize.trans h.lbaSize
  base := h'.base.trans h.base
  completed := h'.completed.trans h.completed
  data d hd := by
    have hd' : (t'.tracker.data d).isSome := by rwa [h.data d hd]
    rw [h'.data d hd', h.data d hd]

lemma find {d : ℤ} (h : Extends t t') (hs : (t.tracker.find d).isSome) :
    t'.tracker.find d = t.tracker.find d := by
  obtain ⟨s, hs⟩ := Option.isSome_iff_exists.mp hs
  obtain ⟨hb, hd⟩ := StreamTracker.find_eq_some.mp hs
  rw [hs, StreamTracker.find_eq_some, h.base, h.data d (by simp [hd])]
  exact ⟨hb, hd⟩

lemma completedUpto (h : Extends t t') (x : ℤ) :
    t'.tracker.completedUpto x = t.tracker.completedUpto x := by
  simp only [StreamTracker.completedUpto, h.completed]

end Extends

def Seen (t : DlsnTracker) : ComputePc → Prop
  | .visit _ u _ _ _ => (t.tracker.find u).isSome
  | .winners Ha idx _ _ => idx ≤ Ha → (t.tracker.find idx).isSome
  | _ => True

lemma Seen.mono (he : Extends t t') (h : Seen t pc) : Seen t' pc := by
  cases pc with
  | visit =>
    rw [Seen, he.find h]
    exact h
  | winners =>
    intro hle
    rw [he.find (h hle)]
    exact h hle
  | _ => trivial

lemma computeStep_congr (he : Extends t t') (h : Seen t pc) :
    (computeStep t' addr len pc).2 = (computeStep t addr len pc).2 := by
  cases pc with
  | loadFrontier => simp [computeStep, he.frontier]
  | loadAcked => simp [computeStep, he.acked]
  | scan => simp [computeStep, he.completedUpto, afterScan, he.scanCap]
  | visit => simp only [computeStep, he.find h]
  | split => simp [computeStep, he.lbaSize]
  | winners Ha idx =>
    simp only [computeStep, he.lbaSize]
    split_ifs with hlt
    · rfl
    · rw [he.find (h (not_lt.mp hlt))]

lemma computeStep_extends : Extends t (computeStep t addr len pc).1 := by
  cases pc with
  | split => exact { Extends.refl t with }
  | _ => exact .refl t

inductive Walk (t : DlsnTracker) (addr len : UInt64) : ComputePc → Prop
  | start : Walk t addr len .loadFrontier
  | next {pc pc' : ComputePc} : Walk t addr len pc → Seen t pc →
      (computeStep t addr len pc).2 = .inl pc' → Walk t addr len pc'

lemma Walk.mono (he : Extends t t') (h : Walk t addr len pc) : Walk t' addr len pc := by
  induction h with
  | start => exact .start
  | next _ hs hc ih => exact ih.next (hs.mono he) ((computeStep_congr he hs).trans hc)

lemma Walk.run (h : Walk t addr len pc) : ∃ n t', Extends t t' ∧
    ∀ m, computeRun addr len (n + m) t .loadFrontier = computeRun addr len m t' pc := by
  induction h with
  | start => exact ⟨0, t, .refl t, fun m => by rw [Nat.zero_add]⟩
  | @next pc pc' _ hs hc ih =>
    obtain ⟨n, t', he, hrun⟩ := ih
    refine ⟨n + 1, (computeStep t' addr len pc).1, he.trans computeStep_extends, fun m => ?_⟩
    have hc' : (computeStep t' addr len pc).2 = .inl pc' := (computeStep_congr he hs).trans hc
    rw [Nat.add_assoc, hrun, Nat.add_comm 1 m]
    simp only [computeRun]
    split
    case h_1 hstep =>
      rw [hstep] at hc'
      cases hc'
      rw [hstep]
    case h_2 hstep =>
      rw [hstep] at hc'
      cases hc'

def Scanned (t : DlsnTracker) : ComputePc → Prop
  | .loadFrontier => True
  | .loadAcked F => F = t.frontier
  | .scan _ h umin _ _ => (∀ j, t.frontier < j → j < h → (t.tracker.data j).isSome) ∧
    t.frontier < h ∧ (0 ≤ umin → t.frontier < umin)
  | .visit _ u umin _ _ => (∀ j, t.frontier < j → j < u → (t.tracker.data j).isSome) ∧
    t.frontier < u ∧ (0 ≤ umin → t.frontier < umin)
  | .split Ha umin _ => (∀ j, t.frontier < j → j ≤ Ha → (t.tracker.data j).isSome) ∧ t.frontier < umin
  | .winners Ha idx _ _ => (∀ j, t.frontier < j → j ≤ Ha → (t.tracker.data j).isSome) ∧ t.frontier < idx

lemma Scanned.step (hw : Window t) (h : Scanned t pc) (hs : Seen t pc)
    (hc : (computeStep t addr len pc).2 = .inl pc') : Scanned t pc' := by
  cases pc with
  | loadFrontier =>
    cases hc
    exact rfl
  | loadAcked F =>
    obtain rfl : F = t.frontier := h
    simp only [computeStep] at hc
    split_ifs at hc
    cases hc
    exact ⟨fun j hj hlt => by omega, by omega, fun hneg => by omega⟩
  | scan Ha x umin anyFailed anyGap =>
    obtain ⟨hall, hx, humin⟩ := h
    have hge := t.tracker.completedUpto_ge x
    have hall' : ∀ j, t.frontier < j → j < t.tracker.completedUpto x + 1 → (t.tracker.data j).isSome := by
      intro j hj hlt
      rcases lt_or_ge j x with hjx | hxj
      · exact hall j hj hjx
      · exact hw.created j (t.tracker.completedUpto_mem hxj (by omega))
    simp only [computeStep] at hc
    split_ifs at hc with hstop
    · simp only [afterScan] at hc
      split_ifs at hc
      cases hc
      exact ⟨fun j hj hle => hall' j hj (by omega), humin (by omega)⟩
    · cases hc
      exact ⟨hall', by omega, humin⟩
  | visit Ha u umin anyFailed anyGap =>
    obtain ⟨hall, hu, humin⟩ := h
    have hall' : ∀ j, t.frontier < j → j < u + 1 → (t.tracker.data j).isSome := by
      intro j hj hlt
      rcases eq_or_ne j u with rfl | hne
      · obtain ⟨s, hs⟩ := Option.isSome_iff_exists.mp hs
        simp [(StreamTracker.find_eq_some.mp hs).2]
      · exact hall j hj (by omega)
    cases hc
    split_ifs
    · exact ⟨hall', by omega, fun _ => hu⟩
    · exact ⟨hall', by omega, humin⟩
    · exact ⟨hall', by omega, humin⟩
  | split Ha umin anyFailed =>
    simp only [computeStep] at hc
    split_ifs at hc <;> cases hc <;> exact h
  | winners Ha idx anyFailed ustar =>
    have hnext : t.frontier < idx + 1 := by
      have hlt := h.2
      omega
    simp only [computeStep] at hc
    split_ifs at hc
    split at hc <;> cases hc <;> exact ⟨h.1, hnext⟩

lemma Walk.scanned (hw : Window t) (h : Walk t addr len pc) : Scanned t pc := by
  induction h with
  | start => trivial
  | next _ hs hc ih => exact ih.step hw hs hc

lemma Walk.seen (hw : Window t) (h : Walk t addr len pc)
    (hv : ∀ Ha u umin f g, pc = .visit Ha u umin f g → (t.tracker.find u).isSome) : Seen t pc := by
  have hsc := h.scanned hw
  cases pc with
  | visit => exact hv _ _ _ _ _ rfl
  | winners Ha idx =>
    intro hle
    have hb := hw.base_le
    have hlt := hsc.2
    rw [StreamTracker.find_of_base_le (by omega)]
    exact hsc.1 idx hlt hle
  | _ => trivial

def Stalls (t : DlsnTracker) (addr len : UInt64) : Prop :=
  ∃ pc p, Walk t addr len pc ∧ Seen t pc ∧ (computeStep t addr len pc).2 = .inr p ∧ p.stall = true

lemma Stalls.mono (he : Extends t t') (h : Stalls t addr len) : Stalls t' addr len := by
  obtain ⟨pc, p, hw, hs, hc, hp⟩ := h
  exact ⟨pc, p, hw.mono he, hs.mono he, (computeStep_congr he hs).trans hc, hp⟩

lemma Stalls.run (h : Stalls t addr len) :
    ∃ n p, computeRun addr len n t .loadFrontier = .inr p ∧ p.stall = true := by
  obtain ⟨pc, p, hw, hs, hc, hp⟩ := h
  obtain ⟨n, t', he, hrun⟩ := hw.run
  refine ⟨n + 1, p, ?_, hp⟩
  have hc' : (computeStep t' addr len pc).2 = .inr p := (computeStep_congr he hs).trans hc
  rw [hrun]
  simp only [computeRun]
  split
  case h_1 hstep =>
    rw [hstep] at hc'
    cases hc'
  case h_2 hstep =>
    rw [hstep] at hc'
    cases hc'
    rfl

end Compute

section Gate

def PlanPc.inside : PlanPc → Bool
  | .compute (some _) _ | .await _ | .leave _ => true
  | _ => false

def PlanPc.event : PlanPc → Option ℕ
  | .enter ev | .compute (some ev) _ | .await ev => some ev
  | _ => none

def Thread.inResolve : Thread → Bool
  | .resolve _ _ _ _ => true
  | _ => false

def Thread.calling : Thread → Bool
  | .create _ _ _ | .resolve _ _ _ _ => true
  | _ => false

lemma Thread.calling_of_inResolve {th : Thread} (h : th.inResolve = true) : th.calling = true := by
  cases th <;> first | rfl | cases h

def UpToDate (t : DlsnTracker) (r : PlanCall) : PlanPc → Prop
  | .compute (some _) pc => Walk t r.addr r.len pc
  | .await _ => Stalls t r.addr r.len
  | _ => True

lemma UpToDate.mono {r : PlanCall} {pc : PlanPc} (he : Extends t t') (h : UpToDate t r pc) :
    UpToDate t' r pc := by
  unfold UpToDate at h ⊢
  split at h
  · exact h.mono he
  · exact h.mono he
  · trivial

variable {ι κ : Type} {s s' : PlanSys ι κ}

def insideReads [Fintype κ] (reads : κ → Option PlanRead) : Finset κ :=
  Finset.univ.filter fun k => (reads k).any fun r => r.pc.inside

def Covered (sys : Sys ι) (r : PlanRead) : Prop :=
  r.pc.inside = true → r.pc.event = some sys.trk.gate.cur →
    (∃ i, (sys.threads i).inResolve = true) ∨ UpToDate sys.trk r.toPlanCall r.pc

structure GateInv [Fintype κ] (s : PlanSys ι κ) : Prop where
  window : WindowSys s.sys
  waiters : s.sys.trk.gate.waiters = (insideReads s.reads).card
  event_le : ∀ k r ev, s.reads k = some r → r.pc.event = some ev → ev ≤ s.sys.trk.gate.cur
  covered : ∀ k r, s.reads k = some r → Covered s.sys r

variable [DecidableEq ι] [Fintype ι] [DecidableEq κ] [Fintype κ]

/-- The reader that recomputes inside the gate finds the slot it visits created. -/
def PlanAct.Sees (s : PlanSys ι κ) : PlanAct ι κ → Prop
  | .read k =>
    match (s.reads k).map PlanRead.pc with
    | some (.compute (some _) (.visit _ u _ _ _)) => (s.sys.trk.tracker.find u).isSome
    | _ => True
  | _ => True

instance (s : PlanSys ι κ) : ∀ a : PlanAct ι κ, Decidable (a.Sees s)
  | .read _ => by
    dsimp only [PlanAct.Sees]
    split <;> infer_instance
  | .write _ | .planRead .. => .isTrue trivial

section Writers

variable {sys sys' : Sys ι} {a : Act ι} {busy weak : Bool} {th th' : Thread}

omit [DecidableEq ι] [Fintype ι] in
lemma threadStep_extends (hb : th.Bounded t) (hr : th.inResolve = false)
    (hs : threadStep t weak th = some (t', th')) : Extends t t' ∧ t'.gate = t.gate := by
  cases th with
  | idle => cases hs
  | resolve => cases hr
  | create d addr len =>
    cases hs
    refine ⟨⟨rfl, rfl, rfl, rfl, rfl, rfl, fun e he => ?_⟩, rfl⟩
    have hne : e ≠ d := by
      rintro rfl
      simp [hb.2] at he
    simp [hne]
  | _ =>
    cases hs
    exact ⟨.refl t, rfl⟩

lemma resolveStep_gate {d : ℤ} {oc : SlotOutcome} {pc : ResolvePc} {r : DlsnTracker × Option ResolvePc}
    (h : resolveStep t d oc weak pc = r) :
    r.1.gate.waiters = t.gate.waiters ∧ t.gate.cur ≤ r.1.gate.cur ∧
      (r.2 = none → t.gate.waiters = 0 ∨ t.gate.cur < r.1.gate.cur) := by
  subst h
  cases pc with
  | load =>
    simp only [resolveStep]
    split <;> simp
  | raise | advCas | truncCas =>
    simp only [resolveStep]
    split_ifs <;> simp
  | signal =>
    simp only [resolveStep]
    split_ifs with hw <;> simp [hw]
  | fire => simp [resolveStep]
  | _ => simp [resolveStep, DlsnTracker.setOutcome, DlsnTracker.setCompleted]

omit [DecidableEq ι] [Fintype ι] in
lemma startCall_extends {c : Call} (hs : startCall t c = some (t', th)) : Extends t t' ∧ t'.gate = t.gate := by
  cases c with
  | reserve addr len =>
    cases hs
    exact ⟨{ Extends.refl t with }, rfl⟩
  | resolve d oc =>
    simp only [startCall] at hs
    split_ifs at hs
    cases hs
    exact ⟨.refl t, rfl⟩
  | retireUpto upto empties =>
    cases hs
    exact ⟨.refl t, rfl⟩

lemma threadStep_serves (hb : th.Bounded t) (hs : threadStep t weak th = some (t', th')) :
    t'.gate.waiters = t.gate.waiters ∧ t.gate.cur ≤ t'.gate.cur ∧
      (th'.inResolve = true ∨ t.gate.waiters = 0 ∨ t.gate.cur < t'.gate.cur ∨
        th.inResolve = false ∧ Extends t t') := by
  by_cases hr : th.inResolve = false
  · obtain ⟨he, hgate⟩ := threadStep_extends hb hr hs
    rw [hgate]
    exact ⟨rfl, le_rfl, Or.inr (Or.inr (Or.inr ⟨hr, he⟩))⟩
  · cases th with
    | resolve d oc pc ret =>
      obtain ⟨r, hstep, rfl, hnext⟩ := threadStep_resolve hs
      obtain ⟨hw, hcur, hend⟩ := resolveStep_gate hstep
      refine ⟨hw, hcur, ?_⟩
      cases hpc : r.2 with
      | some pc' =>
        left
        rw [hnext pc' hpc]
        rfl
      | none =>
        rcases hend hpc with h0 | hlt
        · exact Or.inr (Or.inl h0)
        · exact Or.inr (Or.inr (Or.inl hlt))
    | _ => exact absurd rfl hr

structure Serves (sys sys' : Sys ι) : Prop where
  waiters : sys'.trk.gate.waiters = sys.trk.gate.waiters
  cur_le : sys.trk.gate.cur ≤ sys'.trk.gate.cur
  serves : (∃ i, (sys'.threads i).inResolve = true) ∨ sys.trk.gate.waiters = 0 ∨
    sys.trk.gate.cur < sys'.trk.gate.cur ∨
    (∀ i, (sys.threads i).inResolve = false) ∧ Extends sys.trk sys'.trk

lemma serves_of_move {i : ι} (hth : sys'.threads = Function.update sys.threads i th')
    (hw : sys'.trk.gate.waiters = sys.trk.gate.waiters) (hcur : sys.trk.gate.cur ≤ sys'.trk.gate.cur)
    (h : th'.inResolve = true ∨ sys.trk.gate.waiters = 0 ∨ sys.trk.gate.cur < sys'.trk.gate.cur ∨
      (sys.threads i).inResolve = false ∧ Extends sys.trk sys'.trk) : Serves sys sys' := by
  refine ⟨hw, hcur, ?_⟩
  rcases h with hr | h0 | hlt | ⟨hr, he⟩
  · exact Or.inl ⟨i, by simpa [hth] using hr⟩
  · exact Or.inr (Or.inl h0)
  · exact Or.inr (Or.inr (Or.inl hlt))
  · by_cases hex : ∃ j, (sys.threads j).inResolve = true
    · obtain ⟨j, hj⟩ := hex
      have hne : j ≠ i := by
        rintro rfl
        simp [hr] at hj
      exact Or.inl ⟨j, by rwa [hth, Function.update_of_ne hne]⟩
    · exact Or.inr (Or.inr (Or.inr ⟨by simpa using hex, he⟩))

lemma serves_step (h : WindowSys sys) (hs : step busy sys a = some sys') : Serves sys sys' := by
  rcases step_cases hs with ⟨i, c, th, rfl, hidle, hc, hth, -⟩ | ⟨i, weak, th, rfl, hc, -, hth, -⟩
  · obtain ⟨he, hgate⟩ := startCall_extends hc
    exact serves_of_move hth (by rw [hgate]) (by rw [hgate])
      (Or.inr (Or.inr (Or.inr ⟨by rw [hidle]; rfl, he⟩)))
  · obtain ⟨hw, hcur, hserve⟩ := threadStep_serves (h.threads i) hc
    exact serves_of_move hth hw hcur hserve

end Writers

section Readers

variable {pc pc' : PlanPc}

lemma planStep_counters (hs : planStep t addr len pc = some (t', pc')) :
    ∃ n w, t' = { t with winnerScans := n, gate := { t.gate with waiters := w } } := by
  cases pc with
  | compute ev cpc =>
    have hfst : t' = (computeStep t addr len cpc).1 := by
      simp only [planStep] at hs
      split at hs <;> rename_i hstep <;> cases hs <;> rw [hstep]
    subst hfst
    cases cpc <;> exact ⟨_, _, rfl⟩
  | await ev =>
    simp only [planStep] at hs
    split_ifs at hs
    cases hs
    exact ⟨_, _, rfl⟩
  | done => cases hs
  | _ => cases hs; exact ⟨_, _, rfl⟩

lemma planStep_inside (hs : planStep t addr len pc = some (t', pc')) :
    (pc'.inside = pc.inside ∧ t'.gate.waiters = t.gate.waiters) ∨
    (pc.inside = false ∧ pc'.inside = true ∧ t'.gate.waiters = t.gate.waiters + 1) ∨
    (pc.inside = true ∧ pc'.inside = false ∧ t'.gate.waiters = t.gate.waiters - 1) := by
  cases pc with
  | compute ev cpc =>
    left
    have hgate : (computeStep t addr len cpc).1.gate = t.gate := by cases cpc <;> rfl
    simp only [planStep] at hs
    split at hs <;> rename_i hstep <;> cases hs <;> rw [hstep] at hgate
    · exact ⟨by cases ev <;> rfl, by rw [hgate]⟩
    · refine ⟨?_, by rw [hgate]⟩
      cases ev <;> simp only [afterCompute] <;> split_ifs <;> rfl
  | arm =>
    cases hs
    exact Or.inl ⟨rfl, rfl⟩
  | enter ev =>
    cases hs
    exact Or.inr (Or.inl ⟨rfl, rfl, rfl⟩)
  | await ev =>
    simp only [planStep] at hs
    split_ifs at hs
    cases hs
    exact Or.inl ⟨rfl, rfl⟩
  | leave p =>
    cases hs
    exact Or.inr (Or.inr ⟨rfl, by cases p <;> rfl, rfl⟩)
  | done => cases hs

lemma planStep_upToDate {r : PlanCall} (hw : Window t) (hs : planStep t r.addr r.len pc = some (t', pc'))
    (hv : ∀ ev Ha u umin f g, pc = .compute (some ev) (.visit Ha u umin f g) → (t.tracker.find u).isSome) :
    (∀ ev, pc'.event = some ev → ev = t.gate.cur ∨ pc.event = some ev) ∧
    (pc'.inside = true → ∀ ev, pc'.event = some ev →
      UpToDate t' r pc' ∨
        pc.inside = true ∧ pc.event = some ev ∧ (UpToDate t r pc → UpToDate t' r pc')) := by
  cases pc with
  | compute ev cpc =>
    have hext : Extends t (computeStep t r.addr r.len cpc).1 := computeStep_extends
    simp only [planStep] at hs
    split at hs
    case h_1 t₁ pc₁ hstep =>
      cases hs
      rw [hstep] at hext
      refine ⟨fun e he => Or.inr ?_, fun hin e he => Or.inr ?_⟩
      · cases ev <;> exact he
      · cases ev with
        | none => cases hin
        | some ev =>
          refine ⟨rfl, he, fun hwalk => ?_⟩
          have hseen := Walk.seen hw hwalk fun _ _ _ _ _ he => hv _ _ _ _ _ _ (by rw [he])
          exact (Walk.next hwalk hseen (by rw [hstep])).mono hext
    case h_2 t₁ p hstep =>
      cases hs
      rw [hstep] at hext
      refine ⟨fun e he => Or.inr ?_, fun hin e he => Or.inr ?_⟩
      · cases ev <;> simp only [afterCompute] at he <;> split_ifs at he <;> first | exact he | cases he
      · cases ev with
        | none =>
          simp only [afterCompute] at hin
          split_ifs at hin <;> cases hin
        | some ev =>
          simp only [afterCompute] at he ⊢
          split_ifs at he ⊢ with hst
          · refine ⟨rfl, he, fun hwalk => ?_⟩
            have hseen := Walk.seen hw hwalk fun _ _ _ _ _ he => hv _ _ _ _ _ _ (by rw [he])
            exact Stalls.mono hext ⟨cpc, p, hwalk, hseen, by rw [hstep], hst⟩
          · cases he
  | arm =>
    cases hs
    refine ⟨fun e he => Or.inl (Option.some.inj he).symm, fun hin => ?_⟩
    cases hin
  | enter ev =>
    cases hs
    exact ⟨fun e he => Or.inr he, fun _ _ _ => Or.inl .start⟩
  | await ev =>
    simp only [planStep] at hs
    split_ifs at hs
    cases hs
    exact ⟨nofun, nofun⟩
  | leave p =>
    cases hs
    refine ⟨fun e he => ?_, fun hin => ?_⟩
    · cases p <;> cases he
    · cases p <;> cases hin
  | done => cases hs

omit [DecidableEq κ] in
lemma mem_insideReads {reads : κ → Option PlanRead} {k : κ} {r : PlanRead} (h : reads k = some r) :
    k ∈ insideReads reads ↔ r.pc.inside = true := by
  simp [insideReads, h]

lemma insideReads_update (reads : κ → Option PlanRead) (k : κ) (r : PlanRead) :
    insideReads (Function.update reads k (some r)) =
      if r.pc.inside then insert k (insideReads reads) else (insideReads reads).erase k := by
  ext j
  by_cases hj : j = k
  · subst hj
    cases hin : r.pc.inside <;> simp [insideReads, hin]
  · cases hin : r.pc.inside <;> simp [insideReads, hj]

end Readers

omit [DecidableEq ι] [Fintype ι] [DecidableEq κ] in
lemma GateInv.write {sys : Sys ι} (h : GateInv s) (hw : WindowSys sys) (hsv : Serves s.sys sys) :
    GateInv { s with sys := sys } where
  window := hw
  waiters := hsv.waiters.trans h.waiters
  event_le k r ev hk he := (h.event_le k r ev hk he).trans hsv.cur_le
  covered k r hk hin he := by
    have hle := h.event_le k r _ hk he
    rcases hsv.serves with hex | h0 | hlt | ⟨hnone, hext⟩
    · exact Or.inl hex
    · have hempty : insideReads s.reads = ∅ := Finset.card_eq_zero.mp (h.waiters.symm.trans h0)
      have hmem := (mem_insideReads hk).mpr hin
      simp [hempty] at hmem
    · exact absurd hle (not_le.mpr hlt)
    · have hcur : sys.trk.gate.cur = s.sys.trk.gate.cur := le_antisymm hle hsv.cur_le
      rcases h.covered k r hk hin (hcur ▸ he) with ⟨i, hi⟩ | hup
      · simp [hnone i] at hi
      · exact Or.inr (hup.mono hext)

omit [DecidableEq ι] [Fintype ι] in
lemma WindowSys.counters {sys : Sys ι} (h : WindowSys sys) (n w : ℕ) :
    WindowSys { sys with
      trk := { sys.trk with winnerScans := n, gate := { sys.trk.gate with waiters := w } } } where
  trk := { h.trk with }
  threads i := (h.threads i).mono { Grows.refl _ with } fun _ hd => (h.creating_none hd).1
  creating_inj := h.creating_inj

omit [DecidableEq ι] [Fintype ι] in
lemma GateInv.read {k : κ} {r : PlanRead} {pc' : PlanPc} (h : GateInv s) (hk : s.reads k = some r)
    (hs : planStep s.sys.trk r.addr r.len r.pc = some (t', pc')) (hv : (PlanAct.read k).Sees s)
    (hsys : s'.sys = { s.sys with trk := t' })
    (hreads : s'.reads = Function.update s.reads k (some { r with pc := pc' })) : GateInv s' := by
  have hv' : ∀ ev Ha u umin f g, r.pc = .compute (some ev) (.visit Ha u umin f g) →
      (s.sys.trk.tracker.find u).isSome := by
    intro ev Ha u umin f g hpc
    simpa [PlanAct.Sees, hk, hpc] using hv
  obtain ⟨hev, hup⟩ := planStep_upToDate (r := r.toPlanCall) h.window.trk hs hv'
  have hwin : WindowSys s'.sys ∧ s'.sys.trk.gate.cur = s.sys.trk.gate.cur ∧ Extends s.sys.trk s'.sys.trk := by
    obtain ⟨n, w, rfl⟩ := planStep_counters hs
    rw [hsys]
    exact ⟨h.window.counters n w, rfl, { Extends.refl s.sys.trk with }⟩
  obtain ⟨hwin, hcur, hext⟩ := hwin
  obtain ⟨rfl, hth⟩ : s'.sys.trk = t' ∧ s'.sys.threads = s.sys.threads := by simp [hsys]
  refine ⟨hwin, ?_, fun j r' ev hj he => ?_, fun j r' hj hin he => ?_⟩
  · rw [hreads, insideReads_update]
    rcases planStep_inside hs with ⟨hin, hw⟩ | ⟨hin, hin', hw⟩ | ⟨hin, hin', hw⟩
    · rw [hw, h.waiters]
      split_ifs with hi <;> simp only [hin] at hi
      · rw [Finset.insert_eq_of_mem ((mem_insideReads hk).mpr hi)]
      · rw [Finset.erase_eq_of_notMem ((mem_insideReads hk).not.mpr hi)]
    · rw [hw, h.waiters, if_pos hin',
        Finset.card_insert_of_notMem ((mem_insideReads hk).not.mpr (by simp [hin]))]
    · rw [hw, h.waiters, if_neg (by simp [hin']), Finset.card_erase_of_mem ((mem_insideReads hk).mpr hin)]
  · rw [hcur]
    rw [hreads, Function.update_apply] at hj
    split_ifs at hj with hjk
    · cases hj
      rcases hev ev he with rfl | he
      · exact le_rfl
      · exact h.event_le k r ev hk he
    · exact h.event_le j r' ev hj he
  · rw [hth]
    rw [hreads, Function.update_apply] at hj
    split_ifs at hj with hjk
    · cases hj
      rcases hup hin _ he with hup | ⟨hin', he', hup⟩
      · exact Or.inr hup
      · exact (h.covered k r hk hin' (hcur ▸ he')).imp_right hup
    · exact (h.covered j r' hj hin (hcur ▸ he)).imp_right (·.mono hext)

omit [DecidableEq ι] [Fintype ι] [DecidableEq κ] in
lemma gateInv_start (maxInflight : UInt32) (L : ℤ) (lbaSize : UInt32) :
    GateInv (PlanSys.start (resetAt maxInflight L lbaSize) : PlanSys ι κ) where
  window := windowSys_start maxInflight L lbaSize
  waiters := by simp [PlanSys.start, Sys.start, resetAt, insideReads]
  event_le := fun _ _ _ hr => nomatch hr
  covered := fun _ _ hr => nomatch hr

lemma GateInv.step {a : PlanAct ι κ} (h : GateInv s) (hv : a.Sees s) (hs : planSysStep s a = some s') :
    GateInv s' := by
  cases a with
  | write a =>
    obtain ⟨sys, hsys, rfl⟩ := Option.map_eq_some_iff.mp hs
    exact h.write (h.window.step hsys) (serves_step h.window hsys)
  | planRead k addr len =>
    simp only [planSysStep] at hs
    split_ifs at hs with hdone
    cases hs
    have hout : k ∉ insideReads s.reads := by
      cases hk : s.reads k with
      | none => simp [insideReads, hk]
      | some r =>
        rw [mem_insideReads hk]
        rw [hk] at hdone
        simp only [Option.all_some, PlanRead.isDone] at hdone
        split at hdone
        · rename_i hpc
          simp [hpc, PlanPc.inside]
        · cases hdone
    refine ⟨h.window, ?_, fun j r ev hj he => ?_, fun j r hj hin he => ?_⟩
    · rw [insideReads_update, if_neg (by simp [PlanPc.inside]), Finset.erase_eq_of_notMem hout, h.waiters]
    · simp only [Function.update_apply] at hj
      split_ifs at hj
      · cases hj
        cases he
      · exact h.event_le j r ev hj he
    · simp only [Function.update_apply] at hj
      split_ifs at hj
      · cases hj
        cases hin
      · exact h.covered j r hj hin he
  | read k =>
    simp only [planSysStep] at hs
    obtain ⟨r, hk, hs⟩ := Option.bind_eq_some_iff.mp hs
    obtain ⟨⟨t', pc'⟩, hp, hs⟩ := Option.bind_eq_some_iff.mp hs
    cases hs
    exact h.read hk hp hv rfl rfl

end Gate

theorem suspended_reader_stalls {ι κ : Type} [DecidableEq ι] [Fintype ι] [DecidableEq κ] [Fintype κ]
    {s : PlanSys ι κ} (maxInflight : UInt32) (L : ℤ) (lbaSize : UInt32)
    (h : Reach planSysStep (fun s a => a.Sees s) (.start (resetAt maxInflight L lbaSize)) s)
    {k : κ} {r : PlanRead} {ev : ℕ} (hk : s.reads k = some r) (hpc : r.pc = .await ev)
    (hev : ¬ ev < s.sys.trk.gate.cur) (hcalls : ∀ i, (s.sys.threads i).calling = false) :
    (∃ n p, computeRun r.addr r.len n s.sys.trk .loadFrontier = .inr p) ∧
      ∀ n p, computeRun r.addr r.len n s.sys.trk .loadFrontier = .inr p → p.stall = true := by
  have hinv : GateInv s :=
    h.invariant (gateInv_start maxInflight L lbaSize) fun _ _ _ hi hv hs => hi.step hv hs
  have hle := hinv.event_le k r ev hk (by rw [hpc]; rfl)
  have hcur : r.pc.event = some s.sys.trk.gate.cur := by
    rw [hpc, le_antisymm (not_lt.mp hev) hle]
    rfl
  have hstalls : Stalls s.sys.trk r.addr r.len := by
    rcases hinv.covered k r hk (by rw [hpc]; rfl) hcur with ⟨i, hi⟩ | hup
    · cases (hcalls i).symm.trans (Thread.calling_of_inResolve hi)
    · rwa [hpc] at hup
  obtain ⟨n, p, hrun, hp⟩ := hstalls.run
  exact ⟨⟨n, p, hrun⟩, fun m q hq => computeRun_unique hrun hq ▸ hp⟩

def ackedAbove (zero : List (PlanAct (Fin 2) Unit)) : List (PlanAct (Fin 2) Unit) :=
  List.flatten [[.write (.call 0 (.reserve 8192 4096))], zero,
    [.write (.call 1 (.reserve 0 4096)), .write (.go 1 false), .write (.call 1 (.resolve 1 .acked))],
    List.replicate 9 (.write (.go 1 false))]

theorem suspended_reader_stalls_shortRead :
    ∃ (s : PlanSys (Fin 2) Unit) (r : PlanRead),
      Reach planSysStep (fun s a => a.Sees s) (.start (resetAt 4 (-1) 4096)) s ∧
      s.reads () = some r ∧ r.pc = .await 0 ∧ s.sys.trk.gate.cur = 0 ∧
      (∃ n p, computeRun r.addr r.len n s.sys.trk .loadFrontier = .inr p) ∧
      ∀ n p, computeRun r.addr r.len n s.sys.trk .loadFrontier = .inr p → p.stall = true := by
  obtain ⟨s, hs, hp⟩ := Reach.exists_of_exec planSysStep (fun s a => a.Sees s)
    (PlanSys.start (resetAt 4 (-1) 4096) : PlanSys (Fin 2) Unit)
    (List.flatten [ackedAbove [.write (.go 0 false)], [.planRead () 8192 100], List.replicate 14 (.read ())])
    (fun s => (s.reads ()).any fun r : PlanRead => decide (r.pc = .await 0 ∧ s.sys.trk.gate.cur = 0 ∧
      ∀ i, (s.sys.threads i).calling = false)) (by decide +kernel)
  obtain ⟨r, hr, hd⟩ := (Option.any_eq_true _ _).mp hp
  obtain ⟨hpc, hcur, hcalls⟩ := of_decide_eq_true hd
  exact ⟨s, r, hs, hr, hpc, hcur, suspended_reader_stalls 4 (-1) 4096 hs hr hpc (by simp [hcur]) hcalls⟩

theorem reader_sleeps_past_create :
    ∃ (s : PlanSys (Fin 2) Unit) (r : PlanRead),
      Reach planSysStep free (.start (resetAt 4 (-1) 4096)) s ∧ s.reads () = some r ∧ r.pc = .await 0 ∧
      s.sys.trk.gate.cur = 0 ∧ (∀ i, s.sys.threads i = .idle) ∧
      ∃ n p, computeRun r.addr r.len n s.sys.trk .loadFrontier = .inr p ∧ p.stall = false := by
  obtain ⟨s, hs, hp⟩ := Reach.exists_of_exec planSysStep free
    (PlanSys.start (resetAt 4 (-1) 4096) : PlanSys (Fin 2) Unit)
    (List.flatten [ackedAbove [], [.planRead () 0 4096], List.replicate 12 (.read ()),
      [.write (.go 0 false)]])
    (fun s => (s.reads ()).any fun r : PlanRead => decide (r.pc = .await 0 ∧ s.sys.trk.gate.cur = 0 ∧
      (∀ i, s.sys.threads i = .idle) ∧ computeRun r.addr r.len 5 s.sys.trk .loadFrontier =
        .inr ⟨[⟨0, 4096, 1⟩], false⟩)) (by decide +kernel)
  obtain ⟨r, hr, hd⟩ := (Option.any_eq_true _ _).mp hp
  obtain ⟨hpc, hcur, hidle, hrun⟩ := of_decide_eq_true hd
  exact ⟨s, r, hs, hr, hpc, hcur, hidle, 5, _, hrun, rfl⟩

end CraftClient.Tracker
