import CraftClient.Client.Session

namespace CraftClient.Client

open Replica Router Cluster Tracker

variable {ι κ ρ : Type} {n : ℕ} {s s' : Session ι κ ρ n} {d : ℤ} {m : Fin n} {i : ι} {k : κ} {j : ℕ}

section Tracker

variable [DecidableEq ι] [Fintype ι] [DecidableEq κ] [Fintype κ]

lemma Session.tracks_some {a : PlanAct ι κ} (h : s.tracks a = some s') :
    ∃ plan, planSysStep s.plan a = some plan ∧ s' = { s with plan := plan } := by
  obtain ⟨plan, hp, rfl⟩ := Option.map_eq_some_iff.mp h
  exact ⟨plan, hp, rfl⟩

end Tracker

lemma collect_ok {replies : List ReadReply} {results : List ReadResult}
    (h : collect replies = some (.ok results)) : replies = results.map fun r => some (.ok r) := by
  induction replies generalizing results with
  | nil =>
    cases h
    rfl
  | cons x replies ih =>
    cases x with
    | none => cases h
    | some x =>
      cases x with
      | error e =>
        obtain ⟨rs, -, hx⟩ := Option.map_eq_some_iff.mp h
        cases hx
      | ok r =>
        obtain ⟨rs, hrs, hx⟩ := Option.map_eq_some_iff.mp h
        cases rs with
        | error e => cases hx
        | ok rs =>
          cases hx
          rw [ih hrs]
          rfl

variable [NeZero n] [DecidableEq ι] [Fintype ι] [DecidableEq κ] [Fintype κ] [DecidableEq ρ]

section Writes

lemma sessStep_create (h : sessStep s (.create d) = some s') :
    s.route.loginDlsn < d ∧ s.route.overlay.data d = none ∧
      ∃ sl, s.trk.tracker.data d = some sl ∧ s' = { s with route := s.route.create d sl.addr sl.len } := by
  simp only [sessStep] at h
  split_ifs at h with hd
  obtain ⟨sl, hsl, rfl⟩ := Option.map_eq_some_iff.mp h
  exact ⟨hd.1, Option.isNone_iff_eq_none.mp hd.2, sl, hsl, rfl⟩

lemma sessStep_issue {bytes : Option (List UInt8)} (h : sessStep s (.issue d bytes) = some s') :
    s.writes d = none ∧ ∃ sl, s.route.overlay.data d = some sl ∧ s' = s.setWrite d
      ⟨⟨s.makeHdr, d, sl.addr, sl.len, bytes⟩, fun _ => ⟨⟨.unsent, none⟩, .waiting⟩⟩ := by
  simp only [sessStep] at h
  split_ifs at h with hw
  obtain ⟨sl, hsl, rfl⟩ := Option.map_eq_some_iff.mp h
  exact ⟨by simpa using hw, sl, hsl, rfl⟩

lemma sessStep_leg {a : LegAct} (h : sessStep s (.leg d m a) = some s') :
    ∃ w leg, s.writes d = some w ∧ legStep .mem (w.legs m).leg a = some leg ∧
      s' = s.setWrite d (w.setLeg m { w.legs m with leg := leg }) := by
  simp only [sessStep] at h
  obtain ⟨w, hw, h⟩ := Option.bind_eq_some_iff.mp h
  obtain ⟨leg, hl, h⟩ := Option.bind_eq_some_iff.mp h
  exact ⟨w, leg, hw, hl, (Option.some.inj h).symm⟩

lemma sessStep_deliver (h : sessStep s (.deliver d m) = some s') :
    ∃ w, s.writes d = some w ∧ (w.legs m).leg.request = .inFlight ∧ s' = s.deliver d w m := by
  simp only [sessStep] at h
  obtain ⟨w, hw, h⟩ := Option.bind_eq_some_iff.mp h
  split at h
  case h_1 hr =>
    split_ifs at h
    exact ⟨w, hw, hr, (Option.some.inj h).symm⟩
  case h_2 => cases h

lemma sessStep_record (h : sessStep s (.record d m) = some s') :
    ∃ w res, s.writes d = some w ∧ (w.legs m).stage = .waiting ∧ (w.legs m).leg.seen = some res ∧
      s' = { s.setWrite d (w.setLeg m { w.legs m with stage := if res.isOk then .recorded else .done }) with
        route := s.route.recordCompletion d m res.isOk } := by
  simp only [sessStep] at h
  obtain ⟨w, hw, h⟩ := Option.bind_eq_some_iff.mp h
  split at h
  case h_1 res hst hseen => exact ⟨w, res, hw, hst, hseen, (Option.some.inj h).symm⟩
  case h_2 => cases h

lemma sessStep_sync (h : sessStep s (.sync d m) = some s') :
    ∃ w l, s.writes d = some w ∧ (w.legs m).stage = .recorded ∧ (w.legs m).leg.seen = some (.ok l) ∧
      s' = { s.setWrite d (w.setLeg m { w.legs m with stage := .done }) with
        route := s.route.advanceSynced m l.commitLsn } := by
  simp only [sessStep] at h
  obtain ⟨w, hw, h⟩ := Option.bind_eq_some_iff.mp h
  split at h
  case h_1 l hst hseen => exact ⟨w, l, hw, hst, hseen, (Option.some.inj h).symm⟩
  case h_2 => cases h

lemma sessStep_resolve (h : sessStep s (.resolve i d) = some s') :
    ∃ w oc plan, s.writes d = some w ∧ d ∉ s.resolved ∧ writeOutcome w.seen = some oc ∧
      planSysStep s.plan (.write (.call i (.resolve d oc))) = some plan ∧
      s' = { s with plan := plan, resolved := insert d s.resolved } := by
  simp only [sessStep] at h
  obtain ⟨w, hw, h⟩ := Option.bind_eq_some_iff.mp h
  split_ifs at h with hd
  obtain ⟨oc, hoc, h⟩ := Option.bind_eq_some_iff.mp h
  obtain ⟨s₁, ht, h⟩ := Option.bind_eq_some_iff.mp h
  obtain ⟨plan, hp, rfl⟩ := Session.tracks_some ht
  exact ⟨w, oc, plan, hw, hd, hoc, hp, (Option.some.inj h).symm⟩

end Writes

lemma sessStep_keepAlive {C : ℤ} (h : sessStep s (.keepAlive m C) = some s') :
    s' = s ∨ C ≤ s.trk.frontier ∧ ∃ l r,
      (s.net.members m).doKeepAlive ⟨s.term, C, s.route.allCommitted, s.clientToken⟩ = .ok (l, r) ∧
      s' = { s.setMember m r with beats := Function.update s.beats m (l.commitLsn :: s.beats m) } := by
  simp only [sessStep] at h
  split_ifs at h with hC
  split at h
  case h_1 l r hk => exact Or.inr ⟨hC.1, l, r, hk, (Option.some.inj h).symm⟩
  case h_2 => exact Or.inl (Option.some.inj h).symm

section Reads

lemma sessStep_startRead {addr len : UInt64} (h : sessStep s (.startRead k addr len) = some s') :
    s.precheck addr len = true ∧ (s.reads k).all ClientRead.isDone = true ∧
      ∃ plan, planSysStep s.plan (.planRead k addr len) = some plan ∧
      s' = { s with plan := plan, reads := Function.update s.reads k (some ⟨s.emptied, .plan⟩) } := by
  simp only [sessStep] at h
  split_ifs at h with hk
  obtain ⟨s₁, ht, rfl⟩ := Option.map_eq_some_iff.mp h
  obtain ⟨plan, hp, rfl⟩ := Session.tracks_some ht
  exact ⟨hk.1, hk.2, plan, hp, rfl⟩

lemma sessStep_read {start : Fin n} (h : sessStep s (.read k start) = some s') :
    ∃ c r route pc, s.reads k = some c ∧ s.plan.reads k = some r ∧
      readStep s r start c.pc = some (route, pc) ∧ s' = { s.setRead k c pc with route := route } := by
  simp only [sessStep] at h
  obtain ⟨c, hc, h⟩ := Option.bind_eq_some_iff.mp h
  obtain ⟨r, hr, h⟩ := Option.bind_eq_some_iff.mp h
  obtain ⟨⟨route, pc⟩, hs, h⟩ := Option.bind_eq_some_iff.mp h
  exact ⟨c, r, route, pc, hc, hr, hs, (Option.some.inj h).symm⟩

lemma sessStep_serve (h : sessStep s (.serve k j) = some s') :
    ∃ c r a replies seg, s.reads k = some c ∧ s.plan.reads k = some r ∧ c.pc = .await a replies ∧
      replies[j]? = some none ∧ (planReqs r.addr r.len a.segs)[j]? = some seg ∧
      ((∃ res q, (s.net.members a.target).doRead a.hdr seg.H seg.addr seg.len seg.len = .ok (res, q) ∧
        s' = (s.setMember a.target q).setRead k c (.await a (replies.set j (some (.ok res))))) ∨
      ∃ e, s' = s.setRead k c (.await a (replies.set j (some (.error e))))) := by
  simp only [sessStep] at h
  obtain ⟨c, hc, h⟩ := Option.bind_eq_some_iff.mp h
  obtain ⟨r, hr, h⟩ := Option.bind_eq_some_iff.mp h
  split at h
  case h_2 => cases h
  case h_1 a replies hpc =>
    split at h
    case h_2 => cases h
    case h_1 seg hj hseg =>
      split_ifs at h
      refine ⟨c, r, a, replies, seg, hc, hr, hpc, hj, hseg, ?_⟩
      split at h
      case h_1 res q hd => exact Or.inl ⟨res, q, hd, (Option.some.inj h).symm⟩
      case h_2 e _ => exact Or.inr ⟨e, (Option.some.inj h).symm⟩

lemma sessStep_fail {timedOut : Bool} (h : sessStep s (.fail k j timedOut) = some s') :
    ∃ c a replies e, s.reads k = some c ∧ c.pc = .await a replies ∧
      s' = s.setRead k c (.await a (replies.set j (some (.error e)))) := by
  simp only [sessStep] at h
  obtain ⟨c, hc, h⟩ := Option.bind_eq_some_iff.mp h
  split at h
  case h_2 => cases h
  case h_1 a replies hpc =>
    split at h
    case h_1 => exact ⟨c, a, replies, _, hc, hpc, (Option.some.inj h).symm⟩
    case h_2 => cases h

end Reads

end CraftClient.Client
