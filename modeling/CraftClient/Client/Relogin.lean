import CraftClient.Tracker.Model

/-! A client that logs in again while coroutines of its earlier sessions are still running. -/

namespace CraftClient.Client

open Tracker Runs

variable {ι : Type} {n : ℕ}

inductive Cont (n : ℕ)
  | legs (d : ℤ)
  | verdict (d : ℤ) (oc : SlotOutcome)
  | clear (m : Fin n) (route : ℕ) (upto : ℤ)
  deriving DecidableEq

/-- Where a coroutine stands: in `craft_client::write` up to `rounds`, in `fire_resolution` from `peek` on.
`legs` and `asked` are its suspension points; `route` is the session whose router the leg has captured. -/
inductive Coro (n : ℕ)
  | idle
  | call (th : Thread) (next : Cont n)
  | legs (d : ℤ)
  | noteLoad (d : ℤ)
  | noteCas (d w : ℤ)
  | rounds (ms : List (Fin n))
  | peek (m : Fin n) (route : ℕ)
  | asked (m : Fin n) (route : ℕ) (want : ℤ)
  | clearLoad (m : Fin n) (route : ℕ) (upto : ℤ)
  | clearCas (m : Fin n) (route : ℕ) (upto w : ℤ)
  | release (m : Fin n) (route : ℕ)
  | released (m : Fin n) (route : ℕ)
  | reclaim (m : Fin n) (route : ℕ)
  deriving DecidableEq

def Coro.inUpdate : Coro n → Bool
  | .call th _ => th.inUpdate
  | _ => false

def Coro.suspended : Coro n → Bool
  | .idle | .legs _ | .asked _ _ _ => true
  | _ => false

def Cont.resume : Cont n → Coro n
  | .legs d => .legs d
  | .verdict d oc => if oc = .failed then .noteLoad d else .idle
  | .clear m route upto => .clearLoad m route upto

/-- `want` is `resolve_want_` and `inflight` the `rr_inflight_` of the router of each session. `session` says on
behalf of which login a coroutine runs. -/
structure Relogin (ι : Type) (n : ℕ) where
  trk : DlsnTracker
  want : ℤ
  loginDlsn : ℤ
  epoch : ℕ
  inflight : ℕ → Fin n → Bool
  session : ι → ℕ
  coros : ι → Coro n

namespace Relogin

def start (maxInflight : UInt32) (loginDlsn : ℤ) (lbaSize : UInt32) : Relogin ι n :=
  ⟨resetAt maxInflight loginDlsn lbaSize, -1, loginDlsn, 0, fun _ _ => false, fun _ => 0, fun _ => .idle⟩

variable (s : Relogin ι n)

def login (loginDlsn : ℤ) (lbaSize : UInt32) : Relogin ι n :=
  { s with
    trk := { s.trk with
      lbaSize := lbaSize.toUInt64
      nextDlsn := loginDlsn + 1
      lastTrunc := loginDlsn
      frontier := loginDlsn
      highestAcked := loginDlsn
      tracker := .emplace loginDlsn }
    want := -1
    loginDlsn := loginDlsn
    epoch := s.epoch + 1 }

def setInflight (route : ℕ) (m : Fin n) (b : Bool) : Relogin ι n :=
  { s with inflight := Function.update s.inflight route (Function.update (s.inflight route) m b) }

variable [DecidableEq ι]

def goto (i : ι) (c : Coro n) : Relogin ι n := { s with coros := Function.update s.coros i c }

def spawn (i j : ι) (c : Coro n) : Relogin ι n :=
  { s.goto j c with session := Function.update s.session j (s.session i) }

variable [Fintype ι]

def coroStep (i : ι) (weak : Bool) (j : ι) : Option (Relogin ι n) :=
  match s.coros i with
  | .idle | .legs _ | .asked _ _ _ => none
  | .call th next =>
    if th.truncates ∧ ∃ k, (s.coros k).inUpdate then none
    else (threadStep s.trk weak th).map fun r =>
      { s with trk := r.1 }.goto i (if r.2 = Thread.idle then next.resume else .call r.2 next)
  | .noteLoad d => some (s.goto i (.noteCas d s.want))
  | .noteCas d w =>
    if d ≤ w then some (s.goto i (.rounds (List.finRange n)))
    else if weak ∨ s.want ≠ w then some (s.goto i (.noteCas d s.want))
    else some ({ s with want := d }.goto i (.rounds (List.finRange n)))
  | .rounds [] => some (s.goto i .idle)
  -- the round of a write goes through the router and the term that the client has now
  | .rounds (m :: ms) =>
    if s.inflight s.epoch m then some (s.goto i (.rounds ms))
    else if s.coros j = .idle then
      some (((s.setInflight s.epoch m true).goto i (.rounds ms)).spawn i j (.peek m s.epoch))
    else none
  | .peek m route => some (s.goto i (if s.want < 0 then .release m route else .asked m route s.want))
  | .clearLoad m route upto => some (s.goto i (.clearCas m route upto s.want))
  | .clearCas m route upto w =>
    if w < 0 ∨ upto < w then some (s.goto i (.peek m route))
    else if weak ∨ s.want ≠ w then some (s.goto i (.clearCas m route upto s.want))
    else some ({ s with want := -1 }.goto i (.peek m route))
  | .release m route => some ((s.setInflight route m false).goto i (.released m route))
  | .released m route => some (s.goto i (if s.want < 0 then .idle else .reclaim m route))
  | .reclaim m route =>
    if s.inflight route m then some (s.goto i .idle)
    else some ((s.setInflight route m true).goto i (.peek m route))

end Relogin

/-- `finish` is the end of the legs of a write, with the outcome the write makes of them; `reply` the answer to
a `request_resolution`, none if the member gives an error. -/
inductive ReloginAct (ι : Type)
  | login (loginDlsn : ℤ) (lbaSize : UInt32)
  | write (i : ι) (addr len : UInt64)
  | finish (i : ι) (oc : SlotOutcome)
  | reply (i : ι) (ans : Option (ℤ × List ℤ))
  | go (i : ι) (weak : Bool) (j : ι)

def ReloginAct.mover : ReloginAct ι → Option ι
  | .finish i _ | .reply i _ | .go i _ _ => some i
  | .login _ _ | .write _ _ _ => none

def reloginStep [DecidableEq ι] [Fintype ι] (s : Relogin ι n) : ReloginAct ι → Option (Relogin ι n)
  | .login loginDlsn lbaSize => some (s.login loginDlsn lbaSize)
  | .write i addr len =>
    if s.coros i = .idle then
      let d := s.trk.nextDlsn
      some { s.goto i (.call (.create d addr len) (.legs d)) with
        trk := { s.trk with nextDlsn := d + 1 }
        session := Function.update s.session i s.epoch }
    else none
  | .finish i oc =>
    match s.coros i with
    | .legs d => if oc = .inFlight then none else some (s.goto i (.call (.resolve d oc .load none) (.verdict d oc)))
    | _ => none
  | .reply i ans =>
    match s.coros i, ans with
    | .asked m route _, none => some ((s.setInflight route m false).goto i .idle)
    | .asked m route _, some (upto, empties) =>
      some (s.goto i (.call (.retireHi upto empties) (.clear m route upto)))
    | _, _ => none
  | .go i weak j => s.coroStep i weak j

/-- A login finds every coroutine suspended, and no write that it leaves waiting is above its watermark; after
it such a write does not fail, and a round of an earlier session covers nothing above the watermark. -/
def Covered (s : Relogin ι n) : ReloginAct ι → Prop
  | .login loginDlsn _ => ∀ i, (s.coros i).suspended ∧ ∀ d, s.coros i = .legs d → d ≤ loginDlsn
  | .finish i oc => s.session i < s.epoch → oc ≠ .failed
  | .reply i ans => s.session i < s.epoch → ∀ upto empties, ans = some (upto, empties) → upto ≤ s.loginDlsn
  | _ => True

structure Isolated (s t : Relogin ι n) : Prop where
  outcome : ∀ d, t.trk.outcome d = s.trk.outcome d
  frontier : t.trk.frontier = s.trk.frontier
  highestAcked : t.trk.highestAcked = s.trk.highestAcked
  want : t.want = s.want

section Threads

variable {L : ℤ} {t t' : DlsnTracker} {th th' : Thread} {weak : Bool}

structure Above (L : ℤ) (t : DlsnTracker) (want : ℤ) : Prop where
  base : L < t.tracker.base
  next : L < t.nextDlsn
  frontier : L ≤ t.frontier
  want : want < 0 ∨ L < want

def Forward : Thread → Prop
  | .resolve _ _ (.advCas f nf) _ => f < nf
  | _ => True

structure MovesUp (t t' : DlsnTracker) : Prop where
  base : t.tracker.base ≤ t'.tracker.base
  next : t'.nextDlsn = t.nextDlsn
  frontier : t.frontier ≤ t'.frontier

lemma MovesUp.refl (t : DlsnTracker) : MovesUp t t := ⟨le_rfl, rfl, le_rfl⟩

lemma Above.movesUp {want : ℤ} (h : Above L t want) (hm : MovesUp t t') : Above L t' want :=
  ⟨h.base.trans_le hm.base, hm.next ▸ h.next, h.frontier.trans hm.frontier, h.want⟩

lemma resolveStep_forward {d : ℤ} {oc : SlotOutcome} {pc : ResolvePc} {ret : Option RetireFrame}
    (t : DlsnTracker) (weak : Bool) (h : Forward (.resolve d oc pc ret)) :
    MovesUp t (resolveStep t d oc weak pc).1 ∧
      ∀ pc', (resolveStep t d oc weak pc).2 = some pc' → Forward (.resolve d oc pc' ret) := by
  cases pc with
  | advScan f issued =>
    refine ⟨MovesUp.refl t, ?_⟩
    rintro pc' ⟨⟩
    split_ifs with hn
    · trivial
    · exact not_le.mp hn
  | advCas f nf =>
    simp only [resolveStep]
    split_ifs with hw
    · exact ⟨MovesUp.refl t, by rintro pc' ⟨⟩; trivial⟩
    · obtain rfl : t.frontier = f := by tauto
      exact ⟨⟨le_rfl, rfl, h.le⟩, by rintro pc' ⟨⟩; trivial⟩
  | truncate nf => exact ⟨⟨le_max_left _ _, rfl, le_rfl⟩, by rintro pc' ⟨⟩; trivial⟩
  | load =>
    simp only [resolveStep]
    split
    · exact ⟨MovesUp.refl t, by rintro pc' ⟨⟩; trivial⟩
    · refine ⟨MovesUp.refl t, ?_⟩
      rintro pc' ⟨⟩
      split_ifs <;> trivial
  | raise cur =>
    simp only [resolveStep]
    split_ifs
    all_goals exact ⟨⟨le_rfl, rfl, le_rfl⟩, by rintro pc' ⟨⟩; trivial⟩
  | truncCas nf lt =>
    simp only [resolveStep]
    split_ifs
    all_goals exact ⟨⟨le_rfl, rfl, le_rfl⟩, by rintro pc' ⟨⟩; trivial⟩
  | signal =>
    refine ⟨MovesUp.refl t, fun pc' hpc => ?_⟩
    simp only [resolveStep] at hpc
    split_ifs at hpc
    cases hpc
    trivial
  | fire => exact ⟨⟨le_rfl, rfl, le_rfl⟩, by rintro pc' ⟨⟩⟩
  | store | complete | truncLoad _ =>
    refine ⟨⟨le_rfl, rfl, le_rfl⟩, ?_⟩
    rintro pc' ⟨⟩
    split_ifs <;> trivial
  | recomplete | raiseLoad | advLoad | advIssued _ =>
    exact ⟨⟨le_rfl, rfl, le_rfl⟩, by rintro pc' ⟨⟩; trivial⟩

lemma threadStep_forward (h : Forward th) (hs : threadStep t weak th = some (t', th')) :
    MovesUp t t' ∧ Forward th' := by
  cases th with
  | idle => cases hs
  | resolve d oc pc ret =>
    obtain ⟨hm, hn⟩ := resolveStep_forward t weak h
    simp only [threadStep] at hs
    split at hs
    · rename_i u pc' hr
      cases hs
      rw [hr] at hm hn
      exact ⟨hm, hn pc' rfl⟩
    · rename_i u hr
      cases hs
      rw [hr] at hm
      refine ⟨hm, ?_⟩
      cases ret <;> trivial
  | create d addr len =>
    cases hs
    exact ⟨⟨le_rfl, rfl, le_rfl⟩, trivial⟩
  | retireHi upto empties | retireFrom hi empties | retireFill fr u =>
    cases hs
    exact ⟨MovesUp.refl t, trivial⟩
  | retireScan fr =>
    simp only [threadStep] at hs
    cases hs
    refine ⟨MovesUp.refl t, ?_⟩
    split_ifs <;> trivial
  | retireVisit fr u =>
    simp only [threadStep] at hs
    cases hs
    refine ⟨MovesUp.refl t, ?_⟩
    split_ifs <;> trivial

def StaleCall (L : ℤ) : Thread → Prop
  | .resolve d _ pc ret => d ≤ L ∧ ret = none ∧ (pc = .load ∨ pc = .signal ∨ pc = .fire)
  | .retireHi upto _ => upto ≤ L
  | .retireFrom hi _ => hi ≤ L
  | .retireScan fr => fr.hi < fr.h
  | _ => False

lemma threadStep_stale {want : ℤ} (ha : Above L t want) (h : StaleCall L th)
    (hs : threadStep t weak th = some (t', th')) :
    (∃ gate, t' = { t with gate := gate }) ∧ (th' = .idle ∨ StaleCall L th') := by
  cases th with
  | resolve d oc pc ret =>
    obtain ⟨hd, rfl, rfl | rfl | rfl⟩ := h
    · have hnone : t.tracker.find d = none := if_neg (not_le.mpr (hd.trans_lt ha.base))
      simp only [threadStep, resolveStep, hnone] at hs
      cases hs
      exact ⟨⟨t.gate, rfl⟩, Or.inr ⟨hd, rfl, Or.inr (Or.inl rfl)⟩⟩
    · simp only [threadStep, resolveStep] at hs
      split at hs
      · rename_i hr
        simp only [Prod.mk.injEq] at hr
        split_ifs at hr
        · cases hr.2
        · obtain ⟨rfl, ⟨⟩⟩ := hr
          cases hs
          exact ⟨⟨t.gate, rfl⟩, Or.inr ⟨hd, rfl, Or.inr (Or.inr rfl)⟩⟩
      · rename_i hr
        obtain ⟨rfl, -⟩ := Prod.mk.inj hr
        cases hs
        exact ⟨⟨t.gate, rfl⟩, Or.inl rfl⟩
    · cases hs
      exact ⟨⟨_, rfl⟩, Or.inl rfl⟩
  | retireHi upto empties =>
    cases hs
    exact ⟨⟨t.gate, rfl⟩, Or.inr ((min_le_left _ _).trans h)⟩
  | retireFrom hi empties =>
    cases hs
    have hf := ha.frontier
    change hi ≤ L at h
    exact ⟨⟨t.gate, rfl⟩, Or.inr (by simp only [StaleCall]; omega)⟩
  | retireScan fr =>
    change fr.hi < fr.h at h
    simp only [threadStep, h, true_or, if_true] at hs
    cases hs
    exact ⟨⟨t.gate, rfl⟩, Or.inl rfl⟩
  | idle | create _ _ _ | retireVisit _ _ | retireFill _ _ => exact h.elim

end Threads

section Coroutines

variable {L : ℤ}

def CurrentOk (L : ℤ) : Coro n → Prop
  | .legs d | .noteLoad d | .noteCas d _ => L < d
  | .call th (.legs d) | .call th (.verdict d _) => Forward th ∧ L < d
  | .call th (.clear _ _ _) => Forward th
  | _ => True

def StaleOk (L : ℤ) : Coro n → Prop
  | .legs d => d ≤ L
  | .call th (.verdict _ oc) => StaleCall L th ∧ oc ≠ .failed
  | .call th (.clear _ _ upto) => StaleCall L th ∧ upto ≤ L
  | .clearLoad _ _ upto => upto ≤ L
  | .clearCas _ _ upto w => upto ≤ L ∧ (w < 0 ∨ L < w)
  | .call _ (.legs _) | .noteLoad _ | .noteCas _ _ | .rounds _ => False
  | .idle | .peek _ _ | .asked _ _ _ | .release _ _ | .released _ _ | .reclaim _ _ => True

def CoroOk (s : Relogin ι n) (i : ι) (c : Coro n) : Prop :=
  if s.session i = s.epoch then CurrentOk s.loginDlsn c else StaleOk s.loginDlsn c

structure ReloginInv (s : Relogin ι n) : Prop where
  above : Above s.loginDlsn s.trk s.want
  session : ∀ i, s.session i ≤ s.epoch
  coros : ∀ i, CoroOk s i (s.coros i)

variable {s t : Relogin ι n} {i j : ι} {weak : Bool} [DecidableEq ι]

lemma ReloginInv.goto (h : ReloginInv s) (s' : Relogin ι n) {c : Coro n}
    (hl : s'.loginDlsn = s.loginDlsn) (he : s'.epoch = s.epoch) (hses : s'.session = s.session)
    (hcor : s'.coros = s.coros) (ha : Above s.loginDlsn s'.trk s'.want) (hc : CoroOk s i c) :
    ReloginInv (s'.goto i c) := by
  refine ⟨?_, ?_, ?_⟩
  · change Above s'.loginDlsn s'.trk s'.want
    rwa [hl]
  · intro k
    change s'.session k ≤ s'.epoch
    rw [hses, he]
    exact h.session k
  · intro k
    have hk : CoroOk s k (Function.update s.coros i c k) := by
      rcases eq_or_ne k i with rfl | hki
      · rwa [Function.update_self]
      · rw [Function.update_of_ne hki]
        exact h.coros k
    simpa only [CoroOk, Relogin.goto, hl, he, hses, hcor] using hk

omit [DecidableEq ι] in
lemma coroOk_stale (hi : s.session i ≠ s.epoch) {c : Coro n} : CoroOk s i c ↔ StaleOk s.loginDlsn c := by
  rw [CoroOk, if_neg hi]

omit [DecidableEq ι] in
lemma coroOk_current (hi : s.session i = s.epoch) {c : Coro n} : CoroOk s i c ↔ CurrentOk s.loginDlsn c := by
  rw [CoroOk, if_pos hi]

lemma ReloginInv.goto_stale (h : ReloginInv s) (hi : s.session i ≠ s.epoch) (s' : Relogin ι n) (c : Coro n)
    (hl : s'.loginDlsn = s.loginDlsn) (he : s'.epoch = s.epoch) (hses : s'.session = s.session)
    (hcor : s'.coros = s.coros) (ht : ∃ g, s'.trk = { s.trk with gate := g }) (hw : s'.want = s.want)
    (hc : StaleOk s.loginDlsn c) : ReloginInv (s'.goto i c) ∧ Isolated s (s'.goto i c) := by
  obtain ⟨g, ht⟩ := ht
  refine ⟨h.goto s' hl he hses hcor ?_ ((coroOk_stale hi).mpr hc), ?_⟩
  · rw [ht, hw]
    exact { h.above with }
  · constructor
    · intro d
      change s'.trk.outcome d = _
      rw [ht]
      rfl
    · change s'.trk.frontier = _
      rw [ht]
    · change s'.trk.highestAcked = _
      rw [ht]
    · exact hw

lemma ReloginInv.spawn (h : ReloginInv s) (hi : s.session i = s.epoch) {c : Coro n}
    (hc : CurrentOk s.loginDlsn c) : ReloginInv (s.spawn i j c) := by
  refine ⟨h.above, fun k => ?_, fun k => ?_⟩
  · change Function.update s.session j (s.session i) k ≤ s.epoch
    rcases eq_or_ne k j with rfl | hkj
    · rw [Function.update_self, hi]
    · rw [Function.update_of_ne hkj]
      exact h.session k
  · have hk := h.coros k
    simp only [CoroOk, Relogin.spawn, Relogin.goto] at hk ⊢
    rcases eq_or_ne k j with rfl | hkj
    · simpa only [Function.update_self, if_pos hi] using hc
    · simpa only [Function.update_of_ne hkj] using hk

variable [Fintype ι]

lemma coroStep_stale (h : ReloginInv s) (hi : s.session i ≠ s.epoch) (hs : s.coroStep i weak j = some t) :
    ReloginInv t ∧ Isolated s t := by
  have hc := (coroOk_stale hi).mp (h.coros i)
  have ha := h.above
  have hgo := h.goto_stale hi
  unfold Relogin.coroStep at hs
  cases hk : s.coros i with
  | idle | legs _ | asked _ _ _ =>
    rw [hk] at hs
    cases hs
  | noteLoad _ | noteCas _ _ | rounds _ =>
    rw [hk] at hc
    exact hc.elim
  | call th next =>
    rw [hk] at hs hc
    simp only at hs
    split_ifs at hs
    obtain ⟨⟨t', th'⟩, hth, rfl⟩ := Option.map_eq_some_iff.mp hs
    have hcall : StaleCall s.loginDlsn th := by
      cases next with
      | legs d => exact hc.elim
      | verdict d oc => exact hc.1
      | clear m route upto => exact hc.1
    obtain ⟨hgate, hth'⟩ := threadStep_stale ha hcall hth
    refine hgo { s with trk := t' } _ rfl rfl rfl rfl hgate rfl ?_
    cases next with
    | legs d => exact hc.elim
    | verdict d oc =>
      split_ifs with hidle
      · simp only [Cont.resume, if_neg hc.2]
        trivial
      · exact ⟨hth'.resolve_left hidle, hc.2⟩
    | clear m route upto =>
      split_ifs with hidle
      · exact hc.2
      · exact ⟨hth'.resolve_left hidle, hc.2⟩
  | peek m route =>
    rw [hk] at hs
    cases hs
    refine hgo s _ rfl rfl rfl rfl ⟨s.trk.gate, rfl⟩ rfl ?_
    split_ifs <;> trivial
  | clearLoad m route upto =>
    rw [hk] at hs hc
    cases hs
    exact hgo s _ rfl rfl rfl rfl ⟨s.trk.gate, rfl⟩ rfl ⟨hc, ha.want⟩
  | clearCas m route upto w =>
    rw [hk] at hs hc
    obtain ⟨hu, hw⟩ := hc
    have hstop : w < 0 ∨ upto < w := hw.imp_right hu.trans_lt
    simp only [hstop, if_true] at hs
    cases hs
    exact hgo s _ rfl rfl rfl rfl ⟨s.trk.gate, rfl⟩ rfl trivial
  | release m route =>
    rw [hk] at hs
    cases hs
    exact hgo (s.setInflight route m false) _ rfl rfl rfl rfl ⟨s.trk.gate, rfl⟩ rfl trivial
  | released m route =>
    rw [hk] at hs
    cases hs
    refine hgo s _ rfl rfl rfl rfl ⟨s.trk.gate, rfl⟩ rfl ?_
    split_ifs <;> trivial
  | reclaim m route =>
    rw [hk] at hs
    simp only at hs
    split_ifs at hs
    · cases hs
      exact hgo s _ rfl rfl rfl rfl ⟨s.trk.gate, rfl⟩ rfl trivial
    · cases hs
      exact hgo (s.setInflight route m true) _ rfl rfl rfl rfl ⟨s.trk.gate, rfl⟩ rfl trivial

lemma coroStep_current (h : ReloginInv s) (hi : s.session i = s.epoch) (hs : s.coroStep i weak j = some t) :
    ReloginInv t := by
  have hc := (coroOk_current hi).mp (h.coros i)
  have ha := h.above
  have hgo : ∀ (s' : Relogin ι n) (c : Coro n), s'.loginDlsn = s.loginDlsn → s'.epoch = s.epoch →
      s'.session = s.session → s'.coros = s.coros → Above s.loginDlsn s'.trk s'.want →
      CurrentOk s.loginDlsn c → ReloginInv (s'.goto i c) :=
    fun s' c hl he hses hcor ha hc => h.goto s' hl he hses hcor ha ((coroOk_current hi).mpr hc)
  unfold Relogin.coroStep at hs
  cases hk : s.coros i with
  | idle | legs _ | asked _ _ _ =>
    rw [hk] at hs
    cases hs
  | call th next =>
    rw [hk] at hs hc
    simp only at hs
    split_ifs at hs
    obtain ⟨⟨t', th'⟩, hth, rfl⟩ := Option.map_eq_some_iff.mp hs
    have hcall : Forward th := by
      cases next with
      | legs d => exact hc.1
      | verdict d oc => exact hc.1
      | clear m route upto => exact hc
    obtain ⟨hup, hth'⟩ := threadStep_forward hcall hth
    refine hgo { s with trk := t' } _ rfl rfl rfl rfl (ha.movesUp hup) ?_
    cases next with
    | legs d =>
      split_ifs
      · exact hc.2
      · exact ⟨hth', hc.2⟩
    | verdict d oc =>
      split_ifs
      · rw [Cont.resume]
        split_ifs
        · exact hc.2
        · trivial
      · exact ⟨hth', hc.2⟩
    | clear m route upto =>
      split_ifs
      · trivial
      · exact hth'
  | noteLoad d =>
    rw [hk] at hs hc
    cases hs
    exact hgo s _ rfl rfl rfl rfl ha hc
  | noteCas d w =>
    rw [hk] at hs hc
    simp only at hs
    split_ifs at hs <;> cases hs
    · exact hgo s _ rfl rfl rfl rfl ha trivial
    · exact hgo s _ rfl rfl rfl rfl ha hc
    · exact hgo { s with want := d } _ rfl rfl rfl rfl { ha with want := Or.inr hc } trivial
  | rounds ms =>
    rw [hk] at hs
    cases ms with
    | nil =>
      cases hs
      exact hgo s _ rfl rfl rfl rfl ha trivial
    | cons m ms =>
      simp only at hs
      split_ifs at hs with hm hj <;> cases hs
      · exact hgo s _ rfl rfl rfl rfl ha trivial
      · have hg := hgo (s.setInflight s.epoch m true) (.rounds ms) rfl rfl rfl rfl ha trivial
        exact hg.spawn hi trivial
  | peek m route =>
    rw [hk] at hs
    cases hs
    refine hgo s _ rfl rfl rfl rfl ha ?_
    split_ifs <;> trivial
  | clearLoad m route upto =>
    rw [hk] at hs
    cases hs
    exact hgo s _ rfl rfl rfl rfl ha trivial
  | clearCas m route upto w =>
    rw [hk] at hs
    simp only at hs
    split_ifs at hs <;> cases hs
    · exact hgo s _ rfl rfl rfl rfl ha trivial
    · exact hgo s _ rfl rfl rfl rfl ha trivial
    · exact hgo { s with want := -1 } _ rfl rfl rfl rfl { ha with want := Or.inl neg_one_lt_zero } trivial
  | release m route =>
    rw [hk] at hs
    cases hs
    exact hgo (s.setInflight route m false) _ rfl rfl rfl rfl ha trivial
  | released m route =>
    rw [hk] at hs
    cases hs
    refine hgo s _ rfl rfl rfl rfl ha ?_
    split_ifs <;> trivial
  | reclaim m route =>
    rw [hk] at hs
    simp only at hs
    split_ifs at hs <;> cases hs
    · exact hgo s _ rfl rfl rfl rfl ha trivial
    · exact hgo (s.setInflight route m true) _ rfl rfl rfl rfl ha trivial

omit [DecidableEq ι] [Fintype ι] in
lemma ReloginInv.login (h : ReloginInv s) {loginDlsn : ℤ}
    (hc : ∀ i, (s.coros i).suspended ∧ ∀ d, s.coros i = .legs d → d ≤ loginDlsn) (lbaSize : UInt32) :
    ReloginInv (s.login loginDlsn lbaSize) := by
  refine ⟨⟨Int.lt_succ _, Int.lt_succ _, le_rfl, Or.inl neg_one_lt_zero⟩, fun i => ?_, fun i => ?_⟩
  · exact (h.session i).trans (Nat.le_succ _)
  · have hne : (s.login loginDlsn lbaSize).session i ≠ (s.login loginDlsn lbaSize).epoch :=
      (Nat.lt_succ_of_le (h.session i)).ne
    rw [coroOk_stale hne]
    obtain ⟨hs, hd⟩ := hc i
    change StaleOk loginDlsn (s.coros i)
    cases hk : s.coros i with
    | legs d => exact hd d hk
    | idle | asked _ _ _ => trivial
    | _ =>
      rw [hk] at hs
      cases hs

lemma ReloginInv.step (h : ReloginInv s) {a : ReloginAct ι} (hok : Covered s a)
    (hs : reloginStep s a = some t) :
    ReloginInv t ∧ ∀ i, a.mover = some i → s.session i < s.epoch → Isolated s t := by
  have hsame : ∀ (s' : Relogin ι n) (i : ι) (c : Coro n), s'.trk = s.trk → s'.want = s.want →
      Isolated s (s'.goto i c) := by
    intro s' i c ht hw
    exact ⟨fun d => congrArg (DlsnTracker.outcome · d) ht, congrArg DlsnTracker.frontier ht,
      congrArg DlsnTracker.highestAcked ht, hw⟩
  cases a with
  | login loginDlsn lbaSize =>
    cases hs
    exact ⟨h.login hok lbaSize, by rintro i ⟨⟩⟩
  | write i addr len =>
    simp only [reloginStep] at hs
    split_ifs at hs
    cases hs
    refine ⟨⟨{ h.above with next := h.above.next.trans (Int.lt_succ _) }, fun k => ?_, fun k => ?_⟩,
      by rintro i ⟨⟩⟩
    · change Function.update s.session i s.epoch k ≤ s.epoch
      rcases eq_or_ne k i with rfl | hki
      · rw [Function.update_self]
      · rw [Function.update_of_ne hki]
        exact h.session k
    · have hk := h.coros k
      simp only [CoroOk, Relogin.goto] at hk ⊢
      rcases eq_or_ne k i with rfl | hki
      · simp only [Function.update_self, if_true]
        exact ⟨trivial, h.above.next⟩
      · simpa only [Function.update_of_ne hki] using hk
  | finish i oc =>
    simp only [reloginStep] at hs
    split at hs
    · rename_i d hk
      split_ifs at hs
      cases hs
      have hc := h.coros i
      rw [hk] at hc
      refine ⟨h.goto s rfl rfl rfl rfl h.above ?_, fun _ _ _ => hsame s i _ rfl rfl⟩
      by_cases hi : s.session i = s.epoch
      · rw [coroOk_current hi] at hc ⊢
        exact ⟨trivial, hc⟩
      · rw [coroOk_stale hi] at hc ⊢
        exact ⟨⟨hc, rfl, Or.inl rfl⟩, hok (lt_of_le_of_ne (h.session i) hi)⟩
    · cases hs
  | reply i ans =>
    simp only [reloginStep] at hs
    split at hs
    · cases hs
      refine ⟨h.goto _ rfl rfl rfl rfl h.above ?_, fun _ _ _ => hsame _ i _ rfl rfl⟩
      by_cases hi : s.session i = s.epoch
      · exact (coroOk_current hi).mpr trivial
      · exact (coroOk_stale hi).mpr trivial
    · rename_i upto empties hk
      cases hs
      refine ⟨h.goto s rfl rfl rfl rfl h.above ?_, fun _ _ _ => hsame s i _ rfl rfl⟩
      by_cases hi : s.session i = s.epoch
      · exact (coroOk_current hi).mpr trivial
      · have hu := hok (lt_of_le_of_ne (h.session i) hi) upto empties rfl
        exact (coroOk_stale hi).mpr ⟨hu, hu⟩
    · cases hs
  | go i weak j =>
    by_cases hi : s.session i = s.epoch
    · refine ⟨coroStep_current h hi hs, ?_⟩
      rintro k ⟨⟩ hlt
      exact absurd hi hlt.ne
    · obtain ⟨ht, hiso⟩ := coroStep_stale h hi hs
      exact ⟨ht, fun _ _ _ => hiso⟩

omit [DecidableEq ι] [Fintype ι] in
lemma reloginInv_start (maxInflight : UInt32) (L : ℤ) (lbaSize : UInt32) :
    ReloginInv (.start maxInflight L lbaSize : Relogin ι n) where
  above := ⟨Int.lt_succ L, Int.lt_succ L, le_rfl, Or.inl neg_one_lt_zero⟩
  session _ := le_rfl
  coros _ := (coroOk_current rfl).mpr trivial

theorem relogin_isolates {maxInflight lbaSize : UInt32} {a : ReloginAct ι}
    (h : Reach reloginStep Covered (.start maxInflight L lbaSize) s) (hok : Covered s a)
    (hs : reloginStep s a = some t) (ha : a.mover = some i) (hi : s.session i < s.epoch) : Isolated s t := by
  have hinv := h.invariant (reloginInv_start maxInflight L lbaSize) fun _ _ _ hp hok hs => (hp.step hok hs).1
  exact (hinv.step hok hs).2 i ha hi

end Coroutines

section Runs

def Coro.waitsAbove (L : ℤ) : Coro n → Bool
  | .legs d => L < d
  | _ => false

instance [Fintype ι] (s : Relogin ι n) (a : ReloginAct ι) : Decidable (Covered s a) :=
  match a with
  | .login L _ => decidable_of_iff (∀ i, (s.coros i).suspended ∧ (s.coros i).waitsAbove L = false) (by
      refine forall_congr' fun i => and_congr_right fun _ => ?_
      cases s.coros i <;> simp [Coro.waitsAbove])
  | .finish _ _ => inferInstanceAs (Decidable (_ → _))
  | .reply i (some (upto, _)) => decidable_of_iff (s.session i < s.epoch → upto ≤ s.loginDlsn) (by
      simp [Covered])
  | .reply _ none => .isTrue fun _ _ _ h => by cases h
  | .write _ _ _ | .go _ _ _ => .isTrue trivial

def secondLogin (loginDlsn : ℤ) (oc : SlotOutcome) : List (ReloginAct (Fin 2)) :=
  [.write 0 0 4096, .go 0 false 0, .login loginDlsn 4096, .write 1 0 4096, .go 1 false 0, .finish 0 oc]

theorem relogin_isolates_coveredWrite :
    ∃ s t : Relogin (Fin 2) 3, Reach reloginStep Covered (.start 128 (-1) 4096) s ∧
      reloginStep s (.go 0 false 0) = some t ∧ s.session 0 < s.epoch ∧ Isolated s t := by
  obtain ⟨s, hs, ht⟩ := Reach.exists_of_exec reloginStep Covered
    (.start 128 (-1) 4096 : Relogin (Fin 2) 3) (secondLogin 0 .acked)
    (fun s => (reloginStep s (.go 0 false 0)).isSome && s.session 0 < s.epoch) (by decide +kernel)
  obtain ⟨ht, hi⟩ := Bool.and_eq_true_iff.mp ht
  obtain ⟨t, ht⟩ := Option.isSome_iff_exists.mp ht
  have hi := of_decide_eq_true hi
  have hok : Covered s (.go 0 false 0) := trivial
  exact ⟨s, t, hs, ht, hi, relogin_isolates hs hok ht rfl hi⟩

theorem old_write_fails_new_slot :
    ∃ s t u : Relogin (Fin 2) 3, Reach reloginStep free (.start 128 (-1) 4096) s ∧
      s.session 0 < s.epoch ∧ s.session 1 = s.epoch ∧ s.coros 1 = .legs 0 ∧
      reloginStep s (.go 0 false 0) = some t ∧ Reach reloginStep free t u ∧
      s.trk.outcome 0 = some .inFlight ∧ t.trk.outcome 0 = some .failed ∧
      u.coros 1 = .legs 0 ∧ t.want = -1 ∧ u.want = 0 := by
  obtain ⟨s, hs, hp⟩ := Reach.exists_of_exec reloginStep free
    (.start 128 (-1) 4096 : Relogin (Fin 2) 3) (secondLogin (-1) .failed ++ [.go 0 false 0])
    (fun s => s.session 0 < s.epoch && (s.session 1 = s.epoch && (s.coros 1 = .legs 0 &&
      (s.trk.outcome 0 = some .inFlight && (reloginStep s (.go 0 false 0)).any fun t =>
        t.trk.outcome 0 = some .failed && (t.want = -1 &&
          (exec reloginStep free t (List.replicate 3 (.go 0 false 0))).any fun u =>
            u.coros 1 = .legs 0 && u.want = 0)))))
    (by decide +kernel)
  simp only [Bool.and_eq_true, decide_eq_true_eq, Option.any_eq_true] at hp
  obtain ⟨h₀, h₁, hc, ho, t, ht, ho', hw, u, hu, hc', hw'⟩ := hp
  exact ⟨s, t, u, hs, h₀, h₁, hc, ht, .of_exec _ hu, ho, ho', hc', hw, hw'⟩

end Runs

end CraftClient.Client
