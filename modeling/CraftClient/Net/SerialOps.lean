import CraftClient.Net.SessionMgr

namespace CraftClient.Net

open Runs

variable {π ω δ μ σ : Type}

section Serial

variable {c : Proxies π ω δ μ σ} {s t : Mgr π ω δ μ σ} {o : ω} {a : MgrAct ω δ} {init : π → σ}

def Job.op : Job ω δ → Option ω
  | .resume o => some o
  | .fence _ => none

lemma MgrInv.mem_pendingOps (h : MgrInv c s) : o ∈ s.pending.filterMap Job.op ↔ (s.ops o).isQueued = true := by
  rw [← h.resume, List.mem_filterMap]
  constructor
  · rintro ⟨j, hj, hop⟩
    cases j with
    | resume => exact Option.some.inj hop ▸ hj
    | fence => cases hop
  · exact fun hj => ⟨_, hj, rfl⟩

def Proxies.access (c : Proxies π ω δ μ σ) (ms : List μ) (x : σ) : σ := ms.foldl (fun x m => c.perform m x) x

def Mgr.running (s : Mgr π ω δ μ σ) : Option (ω × List μ) :=
  match s.current with
  | some (.resume o) =>
    match s.ops o with
    | .onMgr left => some (o, left)
    | _ => none
  | _ => none

lemma Mgr.running_of_onMgr {left : List μ} (hcur : s.current = some (.resume o)) (h : s.ops o = .onMgr left) :
    s.running = some (o, left) := by simp only [Mgr.running, hcur, h]

lemma Mgr.isOnMgr_of_running {left : List μ} (h : s.running = some (o, left)) : (s.ops o).isOnMgr = true := by
  rw [Mgr.running] at h
  split at h
  case h_2 => cases h
  case h_1 =>
    split at h
    case h_2 => cases h
    case h_1 hl =>
      cases h
      rw [hl]
      rfl

lemma Mgr.running_of_not (h : ∀ o, s.current = some (.resume o) → (s.ops o).isOnMgr = false) : s.running = none := by
  rw [Mgr.running]
  split
  case h_2 => rfl
  case h_1 o hcur =>
    have ho := h o hcur
    split
    case h_2 => rfl
    case h_1 heq =>
      rw [heq] at ho
      cases ho

lemma Mgr.running_setOp [DecidableEq ω] {pc : HopPc μ} (h : (s.ops o).isOnMgr = false) (hpc : pc.isOnMgr = false) :
    (s.setOp o pc).running = s.running := by
  by_cases hcur : s.current = some (.resume o)
  · rw [Mgr.running_of_not, Mgr.running_of_not]
    · intro o' ho'
      rwa [← Mgr.eq_of_current hcur ho']
    · intro o' ho'
      obtain rfl := Mgr.eq_of_current hcur ho'
      simpa [Mgr.setOp] using hpc
  · simp only [Mgr.running, Mgr.setOp]
    split
    case h_2 => rfl
    case h_1 o' ho' =>
      rw [Function.update_of_ne]
      rintro rfl
      exact hcur ho'

variable [DecidableEq π]

def Proxies.effect (c : Proxies π ω δ μ σ) (p : π) (os : List ω) (x : σ) : σ :=
  os.foldl (fun x o => if c.proxy o = p then c.access (c.body o) x else x) x

lemma Proxies.effect_snoc (c : Proxies π ω δ μ σ) {p : π} {os : List ω} {x : σ} :
    c.effect p (os ++ [o]) x =
      if c.proxy o = p then c.access (c.body o) (c.effect p os x) else c.effect p os x := by
  rw [Proxies.effect, List.foldl_append]
  rfl

def Proxies.left (c : Proxies π ω δ μ σ) (p : π) : Option (ω × List μ) → List μ
  | some (o, left) => if c.proxy o = p then left else []
  | none => []

structure SerialInv (c : Proxies π ω δ μ σ) (init : π → σ) (s : Mgr π ω δ μ σ) : Prop where
  placed : ∀ o, s.ops o = .idle ∨ (s.ops o).isQueued = true ∨ s.ops o = .done
  conns : ∃ ran, s.posted = ran ++ s.pending.filterMap Job.op ∧
    ∀ p, c.access (c.left p s.running) (s.conns p) = c.effect p (ran ++ (s.running.map Prod.fst).toList) (init p)

lemma serialInv_start (init : π → σ) : SerialInv c init (.start init) where
  placed _ := Or.inl rfl
  conns := ⟨[], rfl, fun _ => rfl⟩

lemma SerialInv.of_eq {new : List ω} (h : SerialInv c init s)
    (hplaced : ∀ o, t.ops o = .idle ∨ (t.ops o).isQueued = true ∨ t.ops o = .done) (hrun : t.running = s.running)
    (hconns : t.conns = s.conns) (hposted : t.posted = s.posted ++ new)
    (hpending : t.pending.filterMap Job.op = s.pending.filterMap Job.op ++ new) : SerialInv c init t := by
  obtain ⟨ran, hran, heff⟩ := h.conns
  refine ⟨hplaced, ran, ?_, fun p => ?_⟩
  · rw [hposted, hran, hpending, List.append_assoc]
  · rw [hrun, hconns]
    exact heff p

variable [DecidableEq ω]

lemma SerialInv.placed_setOp {pc : HopPc μ} (h : SerialInv c init s) (hpc : pc.isQueued = true ∨ pc = .done) (o' : ω) :
    (s.setOp o pc).ops o' = .idle ∨ ((s.setOp o pc).ops o').isQueued = true ∨ (s.setOp o pc).ops o' = .done := by
  simp only [Mgr.setOp, Function.update_apply]
  split_ifs
  · exact Or.inr hpc
  · exact h.placed o'

lemma SerialInv.runWaiting (h : SerialInv c init s) (hcur : s.current = some (.resume o)) (ho : s.ops o = .waiting) :
    SerialInv c init (s.setOp o (.onMgr (c.body o))) := by
  obtain ⟨ran, hran, heff⟩ := h.conns
  refine ⟨h.placed_setOp (Or.inl rfl), ran, hran, fun p => ?_⟩
  have hnone : s.running = none := Mgr.running_of_not fun o' ho' => by
    rw [← Mgr.eq_of_current hcur ho', ho]
    rfl
  have hrun : (s.setOp o (.onMgr (c.body o))).running = some (o, c.body o) :=
    Mgr.running_of_onMgr hcur (Function.update_self ..)
  have heq : s.conns p = c.effect p ran (init p) := by simpa [hnone, Proxies.left, Proxies.access] using heff p
  rw [hrun, Option.map_some, Option.toList_some, c.effect_snoc, ← heq, Proxies.left]
  change c.access (if c.proxy o = p then c.body o else []) (s.conns p) = _
  split_ifs
  · rfl
  · rfl

lemma SerialInv.work {m : μ} {ms : List μ} (h : SerialInv c init s) (hcur : s.current = some (.resume o))
    (ho : s.ops o = .onMgr (m :: ms)) : SerialInv c init ((s.access c o m).setOp o (.onMgr ms)) := by
  obtain ⟨ran, hran, heff⟩ := h.conns
  refine ⟨h.placed_setOp (Or.inl rfl), ran, hran, fun p => ?_⟩
  have hrun : ((s.access c o m).setOp o (.onMgr ms)).running = some (o, ms) :=
    Mgr.running_of_onMgr hcur (Function.update_self ..)
  have heq := heff p
  rw [Mgr.running_of_onMgr hcur ho] at heq
  rw [hrun]
  refine Eq.trans ?_ heq
  simp only [Proxies.left, Mgr.setOp, Mgr.access, Function.update_apply]
  by_cases hp : c.proxy o = p
  · rw [if_pos hp, if_pos hp, if_pos hp.symm, hp]
    rfl
  · rw [if_neg hp, if_neg hp, if_neg (Ne.symm hp)]

lemma SerialInv.finish (h : SerialInv c init s) (hcur : s.current = some (.resume o)) (ho : s.ops o = .onMgr []) :
    SerialInv c init { s.setOp o .done with current := none } := by
  obtain ⟨ran, hran, heff⟩ := h.conns
  refine ⟨h.placed_setOp (Or.inr rfl), ran ++ [o], ?_, fun p => ?_⟩
  · rw [Mgr.pending_of_current hcur] at hran
    refine hran.trans ?_
    rw [List.append_assoc]
    rfl
  · have heq := heff p
    rw [Mgr.running_of_onMgr hcur ho] at heq
    refine Eq.trans ?_ (heq.trans ?_)
    · simp only [Mgr.running, Proxies.left, Mgr.setOp, ite_self]
    · simp only [Mgr.running, Option.map_some, Option.map_none, Option.toList_some, Option.toList_none, List.append_nil]

lemma SerialInv.step [DecidableEq δ] (h : SerialInv c init s) (hi : MgrInv c s) (hok : a.Orderly c s)
    (hs : mgrStep c s a = some t) : SerialInv c init t := by
  have hnot : ∀ {o pc}, s.ops o = pc → pc.isQueued = false → pc ≠ .idle → pc ≠ .done → False := by
    intro o pc ho hq hidle hdone
    have hp := h.placed o
    simp [ho, hq, hidle, hdone] at hp
  cases mgrStep_move hs with
  | hopInline _ hstop => exact absurd (hok.symm.trans hstop) Bool.false_ne_true
  | @hopPost o ho =>
    refine SerialInv.of_eq h (h.placed_setOp (Or.inl rfl)) (Mgr.running_setOp (by rw [ho]; rfl) rfl) rfl rfl ?_
    simp [Mgr.pending, Job.op, Mgr.push, Mgr.setOp, ← List.append_assoc]
  | awaitPosted ho =>
    exact h.of_eq (h.placed_setOp (Or.inl rfl)) (Mgr.running_setOp (by rw [ho]; rfl) rfl) rfl (List.append_nil _).symm
      (List.append_nil _).symm
  | awaitReady ho | workInline ho | finishInline ho => exact (hnot ho rfl (by simp) (by simp)).elim
  | take _ hcur hjobs =>
    refine h.of_eq h.placed ?_ rfl (List.append_nil _).symm ?_
    · rw [Mgr.running_of_not]
      · simp only [Mgr.running, hcur]
      · intro o _
        refine Bool.eq_false_iff.mpr fun hm => ?_
        cases hcur.symm.trans (hi.mgr o hm)
    · simp [Mgr.pending, hcur, hjobs]
  | runFence hcur =>
    refine h.of_eq h.placed ?_ rfl (List.append_nil _).symm ?_
    · simp only [Mgr.running, hcur]
    · rw [Mgr.pending_of_current hcur, List.append_nil]
      rfl
  | runEarly hcur ho => exact absurd ho (hok _ hcur)
  | runWaiting hcur ho => exact h.runWaiting hcur ho
  | workMgr ho => exact h.work (hi.mgr _ (by rw [ho]; rfl)) ho
  | finishMgr ho => exact h.finish (hi.mgr _ (by rw [ho]; rfl)) ho
  | notify | sleep | spurious | spuriousDrain | shutdown | doze | leave | shutdownHere =>
    exact h.of_eq h.placed rfl rfl (List.append_nil _).symm (List.append_nil _).symm
  | fence =>
    refine h.of_eq h.placed rfl rfl (List.append_nil _).symm ?_
    simp [Mgr.pending, Job.op, Mgr.push, Mgr.setDrain]

end Serial

theorem blocking_ops_serial [DecidableEq π] [DecidableEq ω] [DecidableEq δ] {c : Proxies π ω δ μ σ} {init : π → σ}
    {s : Mgr π ω δ μ σ}
    (h : Reach (mgrStep c) (fun s a => a.Orderly c s) (.start init) s) :
    (∀ o, s.ops o = .idle ∨ (s.ops o).isQueued = true ∨ s.ops o = .done) ∧
      (∀ o o', (s.ops o).isOnMgr = true → (s.ops o').isOnMgr = true → o = o') ∧
      ∃ ran, ran <+: s.posted ∧ (∀ o ∈ s.posted, s.ops o = .done ↔ o ∈ ran) ∧
        ∀ p, (∀ o, c.proxy o = p → (s.ops o).isOnMgr = false) → s.conns p = c.effect p ran (init p) := by
  obtain ⟨hi, hser⟩ : MgrInv c s ∧ SerialInv c init s := by
    refine h.invariant (P := fun s => MgrInv c s ∧ SerialInv c init s) ⟨mgrInv_start init, serialInv_start init⟩ ?_
    intro s a t hst hok hs
    exact ⟨hst.1.step hs, hst.2.step hst.1 hok hs⟩
  obtain ⟨ran, hran, heff⟩ := hser.conns
  refine ⟨hser.placed, fun o o' ho ho' => ?_, ran, ⟨_, hran.symm⟩, fun o ho => ⟨fun hd => ?_, fun hr => ?_⟩,
    fun p hp => ?_⟩
  · exact Mgr.eq_of_current (hi.mgr o ho) (hi.mgr o' ho')
  · refine (List.mem_append.mp (hran ▸ ho)).resolve_right fun hq => ?_
    rw [hi.mem_pendingOps, hd] at hq
    cases hq
  · refine ((hser.placed o).resolve_left (hi.called o ho)).resolve_left fun hq => ?_
    exact (List.disjoint_of_nodup_append (hran ▸ hi.once)) hr (hi.mem_pendingOps.mpr hq)
  · have heq := heff p
    cases hrun : s.running with
    | none => simpa [hrun, Proxies.left, Proxies.access] using heq
    | some r =>
      -- the operation at hand is one of another proxy
      obtain ⟨o, left⟩ := r
      have hon := Mgr.isOnMgr_of_running hrun
      have hne : c.proxy o ≠ p := fun hpo => by simp [hp o hpo] at hon
      rw [hrun, Option.map_some, Option.toList_some, c.effect_snoc, if_neg hne, Proxies.left, if_neg hne] at heq
      exact heq

section Runs

instance decidableOrderly (s : OneMgr) : ∀ a : MgrAct (Fin 2) Unit, Decidable (a.Orderly oneProxy s)
  | .hop _ => inferInstanceAs (Decidable (_ = false))
  | .run => decidableSuspended s .run
  | .notify _ | .await _ | .sleep | .spurious _ | .take | .work _ | .finish _ | .shutdown _ | .fence _ | .doze _
  | .leave _ | .shutdownHere _ => .isTrue trivial

theorem blocking_ops_serial_twoOps : ∃ s : OneMgr,
    Reach (mgrStep oneProxy) (fun s a => a.Orderly oneProxy s) oneMgr s ∧ s.conns () = [0, 1] ∧
      (∀ o, s.ops o = .idle ∨ (s.ops o).isQueued = true ∨ s.ops o = .done) ∧
      (∀ o o', (s.ops o).isOnMgr = true → (s.ops o').isOnMgr = true → o = o') ∧
      ∃ ran, ran <+: s.posted ∧ (∀ o ∈ s.posted, s.ops o = .done ↔ o ∈ ran) ∧
        ∀ p, (∀ o, oneProxy.proxy o = p → (s.ops o).isOnMgr = false) → s.conns p = oneProxy.effect p ran [] := by
  obtain ⟨s, hs, hp⟩ := Reach.exists_of_exec (mgrStep oneProxy) (fun s a => a.Orderly oneProxy s) oneMgr drainedActs
    (fun s => decide (s.conns () = [0, 1])) (by decide)
  exact ⟨s, hs, of_decide_eq_true hp, blocking_ops_serial hs⟩

theorem late_ops_race : ∃ s : OneMgr, Reach (mgrStep oneProxy) (fun s a => a.Suspended s) oneMgr s ∧
    s.ops 0 = .onMgr [0] ∧ s.ops 1 = .inline [1] := by
  obtain ⟨s, hs, hp⟩ := Reach.exists_of_exec (mgrStep oneProxy) (fun s a => a.Suspended s) oneMgr
    [.hop 0, .notify (.resume 0), .await 0, .take, .run, .shutdown (), .hop 1, .await 1]
    (fun s => decide (s.ops 0 = .onMgr [0] ∧ s.ops 1 = .inline [1])) (by decide)
  exact ⟨s, hs, of_decide_eq_true hp⟩

end Runs

section Progress

variable {c : Proxies π ω δ μ σ} {s t : Mgr π ω δ μ σ} {a : MgrAct ω δ} {o : ω} {d : δ}

def MgrAct.fromOutside : MgrAct ω δ → Bool
  | .hop _ | .shutdown _ | .shutdownHere _ | .spurious _ => true
  | _ => false

lemma sum_update_lt {α β : Type} [DecidableEq α] [Fintype α] {f : α → β} {i : α} {x y : β} (rank : α → β → ℕ)
    (hi : f i = y) (h : rank i x < rank i y) : ∑ j, rank j (Function.update f i x j) < ∑ j, rank j (f j) := by
  refine Finset.sum_lt_sum (fun j _ => ?_) ⟨i, Finset.mem_univ i, by rwa [Function.update_self, hi]⟩
  rw [Function.update_apply]
  split_ifs with heq
  · rw [heq, hi]
    exact h.le
  · exact le_rfl

section Rank

variable [Fintype ω] [Fintype δ]

def HopPc.rank (body : List μ) : HopPc μ → ℕ
  | .idle | .done => 0
  | .posted => body.length + 4
  | .waiting | .ready => body.length + 3
  | .onMgr left | .inline left => left.length + 1

def DrainPc.rank : DrainPc → ℕ
  | .idle | .returned | .skipped => 0
  | .stopped => 4
  | .fenced => 3
  | .asleep => 2
  | .hit => 1

def Mgr.rank (c : Proxies π ω δ μ σ) (s : Mgr π ω δ μ σ) : ℕ :=
  ∑ o, (s.ops o).rank (c.body o) + 5 * ∑ d, (s.drains d).rank + 2 * s.jobs.length + s.current.toList.length +
    2 * s.notifying.length + (!s.asleep).toNat

lemma rank_lt_of_op [DecidableEq ω] {pc pc' : HopPc μ} (ho : s.ops o = pc') (hops : t.ops = Function.update s.ops o pc)
    (h : pc.rank (c.body o) < pc'.rank (c.body o)) (hdrains : t.drains = s.drains) (hjobs : t.jobs = s.jobs)
    (hcur : t.current.toList.length ≤ s.current.toList.length) (hnote : t.notifying = s.notifying)
    (hsleep : t.asleep = s.asleep) : t.rank c < s.rank c := by
  have hlt := sum_update_lt (fun o => HopPc.rank (c.body o)) ho h
  rw [← hops] at hlt
  rw [Mgr.rank, Mgr.rank, hdrains, hjobs, hnote, hsleep]
  omega

lemma rank_lt_of_drain [DecidableEq δ] {pc pc' : DrainPc} (hd : s.drains d = pc')
    (hdrains : t.drains = Function.update s.drains d pc) (h : pc.rank < pc'.rank) (hops : t.ops = s.ops)
    (hjobs : t.jobs.length ≤ s.jobs.length + 1) (hcur : t.current.toList.length ≤ s.current.toList.length)
    (hnote : t.notifying.length ≤ s.notifying.length + 1) (hsleep : t.asleep = s.asleep) : t.rank c < s.rank c := by
  have hlt := sum_update_lt (fun _ => DrainPc.rank) hd h
  rw [← hdrains] at hlt
  rw [Mgr.rank, Mgr.rank, hops, hsleep]
  omega

lemma MgrInv.rank_lt [DecidableEq π] [DecidableEq ω] [DecidableEq δ] (h : MgrInv c s) (ha : a.fromOutside = false)
    (hs : mgrStep c s a = some t) : t.rank c < s.rank c := by
  cases mgrStep_move hs with
  | hopInline | hopPost | shutdown | shutdownHere | spurious | spuriousDrain => cases ha
  | awaitPosted ho | awaitReady ho | runWaiting _ ho | workMgr ho | workInline ho | finishInline ho =>
    exact rank_lt_of_op ho rfl (by simp [HopPc.rank]) rfl rfl le_rfl rfl rfl
  | finishMgr ho | runEarly _ ho => exact rank_lt_of_op ho rfl (by simp [HopPc.rank]) rfl rfl (Nat.zero_le _) rfl rfl
  | notify hj =>
    -- one notification less outweighs the thread that it may have woken
    have hlen := List.length_erase_add_one hj
    have hwoken : (!s.asleep).toNat ≤ 1 := Bool.toNat_le _
    simp only [Mgr.rank, Mgr.notify, Bool.not_false, Bool.toNat_true]
    omega
  | sleep hsleep =>
    simp only [Mgr.rank, hsleep, Bool.not_false, Bool.not_true, Bool.toNat_true, Bool.toNat_false]
    omega
  | take _ hcur hjobs =>
    simp only [Mgr.rank, hcur, hjobs, Option.toList_none, Option.toList_some, List.length_cons, List.length_nil]
    omega
  | @runFence d hcur =>
    have hd := (h.fence d).mp (Mgr.pending_of_current hcur ▸ List.mem_cons_self)
    have hrank : DrainPc.rank .hit < (s.drains d).rank := by
      cases hpc : s.drains d <;> simp [hpc, DrainPc.isFenced, DrainPc.rank] at hd ⊢
    exact rank_lt_of_drain rfl rfl hrank rfl (Nat.le_succ _) (Nat.zero_le _) (Nat.le_succ _) rfl
  | fence hd =>
    exact rank_lt_of_drain hd rfl (by decide) rfl (by simp [Mgr.push, Mgr.setDrain]) le_rfl
      (by simp [Mgr.push, Mgr.setDrain]) rfl
  | doze hd | leave hd =>
    exact rank_lt_of_drain hd rfl (by decide) rfl (Nat.le_succ _) le_rfl (Nat.le_succ _) rfl

end Rank

structure Mgr.Quiet (s : Mgr π ω δ μ σ) : Prop where
  pending : s.pending = []
  notifying : s.notifying = []
  ops : ∀ o, s.ops o = .idle ∨ s.ops o = .done
  drains : ∀ d, s.drains d = .idle ∨ s.drains d = .returned ∨ s.drains d = .skipped

variable [DecidableEq π] [DecidableEq ω] [DecidableEq δ]

def Proceeds (c : Proxies π ω δ μ σ) (s : Mgr π ω δ μ σ) : Prop :=
  ∃ a t, MgrAct.Orderly c s a ∧ a.fromOutside = false ∧ mgrStep c s a = some t

lemma proceeds_notify (h : s.notifying ≠ []) : Proceeds c s := by
  obtain ⟨j, js, hj⟩ := List.exists_cons_of_ne_nil h
  exact ⟨.notify j, s.notify j, trivial, rfl, if_pos (by rw [hj]; exact List.mem_cons_self)⟩

lemma proceeds_op (hret : ∀ m, c.returns m = true) (hnote : s.notifying = []) (h : s.ops o ≠ .idle)
    (hd : s.ops o ≠ .done) (hw : s.ops o ≠ .waiting) : Proceeds c s := by
  have hfree : .resume o ∉ s.notifying := by
    rw [hnote]
    exact List.not_mem_nil
  cases ho : s.ops o with
  | idle => exact absurd ho h
  | done => exact absurd ho hd
  | waiting => exact absurd ho hw
  | posted => exact ⟨.await o, s.setOp o .waiting, trivial, rfl, by simp only [mgrStep, if_neg hfree, ho]⟩
  | ready => exact ⟨.await o, s.setOp o (.inline (c.body o)), trivial, rfl, by simp only [mgrStep, if_neg hfree, ho]⟩
  | onMgr left =>
    cases left with
    | nil => exact ⟨.finish o, { s.setOp o .done with current := none }, trivial, rfl, by simp only [mgrStep, ho]⟩
    | cons m ms =>
      exact ⟨.work o, (s.access c o m).setOp o (.onMgr ms), trivial, rfl, by simp only [mgrStep, ho, if_pos (hret m)]⟩
  | inline left =>
    cases left with
    | nil => exact ⟨.finish o, s.setOp o .done, trivial, rfl, by simp only [mgrStep, ho]⟩
    | cons m ms =>
      exact ⟨.work o, (s.access c o m).setOp o (.inline ms), trivial, rfl, by simp only [mgrStep, ho, if_pos (hret m)]⟩

lemma MgrInv.proceeds_pending (h : MgrInv c s) (hret : ∀ m, c.returns m = true) (hnote : s.notifying = [])
    (hp : s.pending ≠ []) : Proceeds c s := by
  cases hcur : s.current with
  | none =>
    cases hjobs : s.jobs with
    | nil => exact absurd (by rw [Mgr.pending, hcur, hjobs]; rfl) hp
    | cons j js =>
      have hawake : s.asleep = false := by
        refine Bool.eq_false_iff.mpr fun ha => ?_
        rcases (h.woken ha).2 with hnil | hne
        · rw [hjobs] at hnil
          cases hnil
        · exact hne hnote
      exact ⟨.take, { s with current := some j, jobs := js }, trivial, rfl,
        by simp only [mgrStep, hawake, hcur, hjobs]⟩
  | some j =>
    cases j with
    | fence d =>
      refine ⟨.run, { s.setDrain d .hit with current := none }, fun o ho => ?_, rfl, by simp only [mgrStep, hcur]⟩
      cases hcur.symm.trans ho
    | resume o =>
      have hq : (s.ops o).isQueued = true := (h.resume o).mp (Mgr.pending_of_current hcur ▸ List.mem_cons_self)
      by_cases hw : s.ops o = .waiting
      · refine ⟨.run, s.setOp o (.onMgr (c.body o)), fun o' ho' => ?_, rfl, by simp only [mgrStep, hcur, hw]⟩
        rw [← Mgr.eq_of_current hcur ho', hw]
        simp
      · refine proceeds_op hret hnote (fun hi => ?_) (fun hd => ?_) hw
        · simp [hi, HopPc.isQueued] at hq
        · simp [hd, HopPc.isQueued] at hq

lemma MgrInv.proceeds (h : MgrInv c s) (hret : ∀ m, c.returns m = true) (hq : ¬ s.Quiet) : Proceeds c s := by
  by_contra hno
  have hnote : s.notifying = [] := by
    by_contra hne
    exact hno (proceeds_notify hne)
  have hp : s.pending = [] := by
    by_contra hp
    exact hno (h.proceeds_pending hret hnote hp)
  have hfree : ∀ d, .fence d ∉ s.notifying := fun d => by
    rw [hnote]
    exact List.not_mem_nil
  refine hq ⟨hp, hnote, fun o => ?_, fun d => ?_⟩
  · by_contra ho
    have hw : s.ops o ≠ .waiting := by
      intro hw
      have hmem := (h.resume o).mpr (by rw [hw]; rfl)
      rw [hp] at hmem
      cases hmem
    exact hno (proceeds_op hret hnote (fun hi => ho (Or.inl hi)) (fun hd => ho (Or.inr hd)) hw)
  · cases hd : s.drains d with
    | idle => exact Or.inl rfl
    | returned => exact Or.inr (Or.inl rfl)
    | skipped => exact Or.inr (Or.inr rfl)
    | stopped => exact absurd ⟨.fence d, _, trivial, rfl, if_pos hd⟩ hno
    | fenced => exact absurd ⟨.doze d, _, trivial, rfl, if_pos ⟨hd, hfree d⟩⟩ hno
    | hit => exact absurd ⟨.leave d, _, trivial, rfl, if_pos ⟨hd, hfree d⟩⟩ hno
    | asleep =>
      have hmem := (h.fence d).mpr (by rw [hd]; rfl)
      rw [hp] at hmem
      cases hmem

end Progress

/-- No operation and no shutdown is left behind: if every access returns, then wherever the process has got to it takes
by itself at most so many more steps, and where it can take no more every operation that was called is done and every
shutdown has returned. -/
theorem session_mgr_settles [DecidableEq π] [DecidableEq ω] [DecidableEq δ] [Fintype ω] [Fintype δ]
    (c : Proxies π ω δ μ σ) (hret : ∀ m, c.returns m = true) (init : π → σ) (s : Mgr π ω δ μ σ)
    (h : Reach (mgrStep c) free (.start init) s) (acts : List (MgrAct ω δ))
    (hacts : ∀ a ∈ acts, a.fromOutside = false) (t : Mgr π ω δ μ σ) (ht : exec (mgrStep c) free s acts = some t) :
    acts.length ≤ s.rank c ∧
      (t.Quiet ∨ ∃ a u, MgrAct.Orderly c t a ∧ a.fromOutside = false ∧ mgrStep c t a = some u) := by
  have hi : MgrInv c s := h.invariant (P := MgrInv c) (mgrInv_start init) fun _ _ _ hi _ hs => hi.step hs
  clear h
  induction acts generalizing s with
  | nil =>
    obtain rfl : s = t := Option.some.inj ht
    refine ⟨Nat.zero_le _, ?_⟩
    by_cases hq : s.Quiet
    · exact Or.inl hq
    · exact Or.inr (hi.proceeds hret hq)
  | cons a acts ih =>
    obtain ⟨ha, hacts⟩ := List.forall_mem_cons.mp hacts
    simp only [exec, List.foldlM_cons] at ht
    obtain ⟨u, hu, ht⟩ := Option.bind_eq_some_iff.mp ht
    have hfree : free s a := trivial
    rw [if_pos hfree] at hu
    obtain ⟨hlen, hend⟩ := ih u hacts ht (hi.step hu)
    have hlt := hi.rank_lt ha hu
    exact ⟨by rw [List.length_cons]; omega, hend⟩

theorem session_mgr_settles_twoOps : ∃ s : OneMgr, Reach (mgrStep oneProxy) free oneMgr s ∧ s.asleep = true ∧
    5 ≤ s.rank oneProxy ∧
      ∃ t, exec (mgrStep oneProxy) free s [.notify (.resume 0), .await 0, .take, .run, .work 0] = some t ∧
        (t.Quiet ∨ ∃ a u, MgrAct.Orderly oneProxy t a ∧ a.fromOutside = false ∧ mgrStep oneProxy t a = some u) := by
  obtain ⟨s, hs, hp⟩ := Reach.exists_of_exec (mgrStep oneProxy) free oneMgr [.sleep, .hop 0]
    (fun s => s.asleep &&
      (exec (mgrStep oneProxy) free s [.notify (.resume 0), .await 0, .take, .run, .work 0]).isSome) (by decide)
  obtain ⟨ha, hp⟩ := Bool.and_eq_true_iff.mp hp
  obtain ⟨t, ht⟩ := Option.isSome_iff_exists.mp hp
  obtain ⟨hlen, hend⟩ := session_mgr_settles oneProxy (fun _ => rfl) (fun _ => []) s hs _ (by decide) t ht
  exact ⟨s, hs, ha, hlen, t, ht, hend⟩

theorem shutdown_waits_for_receive : ∃ s : OneMgr,
    Reach (mgrStep { oneProxy with returns := fun _ => false }) free oneMgr s ∧ s.drains () = .asleep ∧
      s.ops 0 = .onMgr [0] ∧ s.jobs = [.fence ()] := by
  obtain ⟨s, hs, hp⟩ := Reach.exists_of_exec (mgrStep { oneProxy with returns := fun _ => false }) free oneMgr
    [.hop 0, .notify (.resume 0), .await 0, .take, .run, .shutdown (), .fence (), .notify (.fence ()), .doze ()]
    (fun s => decide (s.drains () = .asleep ∧ s.ops 0 = .onMgr [0] ∧ s.jobs = [.fence ()])) (by decide)
  exact ⟨s, hs, of_decide_eq_true hp⟩

end CraftClient.Net
