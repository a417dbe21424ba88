import CraftClient.Tracker.Steps

namespace CraftClient.Tracker

variable {L : ℤ} {t t' : DlsnTracker} {d e : ℤ} {weak busy : Bool} {th th' : Thread}

def Settled (t : DlsnTracker) (d : ℤ) : Prop :=
  ∃ oc, t.outcome d = some oc ∧ isResolved oc = true ∧ (oc = .acked → d ≤ t.readHorizon)

def AckOk (t : DlsnTracker) : Thread → Prop
  | .resolve d .acked pc _ =>
    match pc with
    | .load | .store | .complete | .raiseLoad | .raise _ => True
    | _ => Settled t d
  | _ => True

def RaisesFirst (t : DlsnTracker) : Thread → Prop
  | .resolve d .acked .load _ => t.outcome d = some .acked → d ≤ t.readHorizon
  | _ => True

instance (t : DlsnTracker) (th : Thread) : Decidable (RaisesFirst t th) := by
  unfold RaisesFirst
  split <;> infer_instance

lemma Evolves.readHorizon (he : Evolves t t') : t.readHorizon ≤ t'.readHorizon :=
  max_le_max he.frontier he.acked

lemma Settled.mono (he : Evolves t t') (h : Settled t d) : Settled t' d := by
  obtain ⟨oc, ho, hr, hle⟩ := h
  exact ⟨oc, he.outcome ho hr, hr, fun hoc => (hle hoc).trans he.readHorizon⟩

lemma AckOk.mono (he : Evolves t t') (h : AckOk t th) : AckOk t' th := by
  cases th with
  | resolve d oc pc ret =>
    cases oc with
    | acked =>
      cases pc with
      | load | store | complete | raiseLoad | raise => trivial
      | _ => exact Settled.mono he h
    | _ => trivial
  | _ => trivial

lemma resolveStep_ackOk {pc pc' : ResolvePc} {ret : Option RetireFrame} (weak : Bool) (hi : Inv L t)
    (hd : (t.tracker.data d).isSome) (hok : ResolveOk L t d .acked pc)
    (he : Evolves t (resolveStep t d .acked weak pc).1) (h : AckOk t (.resolve d .acked pc ret))
    (hf : RaisesFirst t (.resolve d .acked pc ret))
    (hpc : (resolveStep t d .acked weak pc).2 = some pc') :
    AckOk (resolveStep t d .acked weak pc).1 (.resolve d .acked pc' ret) := by
  cases pc with
  | load =>
    simp only [resolveStep] at hpc ⊢
    cases hs : t.tracker.find d with
    | none =>
      rw [hs] at hpc
      cases hpc
      obtain ⟨s, hdata⟩ := Option.isSome_iff_exists.mp hd
      have hbase : d < t.tracker.base := by
        by_contra hge
        rw [StreamTracker.find_of_base_le (not_lt.mp hge), hdata] at hs
        cases hs
      have hF := hi.base_le
      have hle : d ≤ t.frontier := by omega
      obtain ⟨oc, ho, hr⟩ := hi.resolved (hi.issued_of_data d s hdata).1 hle
      exact ⟨oc, ho, hr, fun _ => le_max_of_le_left hle⟩
    | some s =>
      rw [hs] at hpc
      cases hpc
      have ho : t.outcome d = some s.outcome := by
        simp [DlsnTracker.outcome, (StreamTracker.find_eq_some.mp hs).2]
      dsimp only
      split_ifs with hr
      · exact ⟨s.outcome, ho, hr, fun hoc => hf (by rw [ho, hoc])⟩
      · trivial
  | store | complete | raiseLoad =>
    cases hpc
    trivial
  | raise cur =>
    obtain ⟨ho, hcur⟩ := hok
    simp only [resolveStep] at hpc ⊢
    split_ifs at hpc ⊢ with hle
    · cases hpc
      exact ⟨.acked, ho, rfl, fun _ => le_max_of_le_right (hle.trans hcur)⟩
    · cases hpc
      trivial
    · cases hpc
      exact ⟨.acked, ho, rfl, fun _ => le_max_right _ _⟩
  | advCas =>
    simp only [resolveStep] at hpc he ⊢
    split_ifs at hpc he ⊢ <;> cases hpc <;> exact Settled.mono he h
  | truncCas =>
    simp only [resolveStep] at hpc he ⊢
    split_ifs at hpc he ⊢ <;> cases hpc <;> exact Settled.mono he h
  | advScan =>
    simp only [resolveStep] at hpc he ⊢
    split_ifs at hpc <;> cases hpc <;> exact Settled.mono he h
  | truncLoad =>
    simp only [resolveStep] at hpc he ⊢
    split_ifs at hpc <;> cases hpc <;> exact Settled.mono he h
  | signal =>
    simp only [resolveStep] at hpc he ⊢
    split_ifs at hpc
    cases hpc
    exact Settled.mono he h
  | fire => cases hpc
  | _ =>
    cases hpc
    exact Settled.mono he h

lemma threadStep_ackOk (hi : Inv L t) (hk : ThreadOk L t th) (he : Evolves t t') (h : AckOk t th)
    (hf : RaisesFirst t th) (hs : threadStep t weak th = some (t', th')) : AckOk t' th' := by
  cases th with
  | idle => cases hs
  | resolve d oc pc ret =>
    simp only [threadStep] at hs
    rcases hr : resolveStep t d oc weak pc with ⟨u, _ | pc'⟩
    · rw [hr] at hs
      cases hs
      cases ret <;> trivial
    · rw [hr] at hs
      cases hs
      cases oc with
      | acked =>
        have hh := resolveStep_ackOk weak hi hk.1 hk.2 (by rwa [hr]) h hf (by rw [hr])
        rwa [hr] at hh
      | _ => trivial
  | retireScan | retireVisit =>
    cases hs
    split_ifs <;> trivial
  | _ =>
    cases hs
    trivial

lemma startCall_ackOk {c : Call} (hs : startCall t c = some (t', th)) : AckOk t' th := by
  cases c with
  | reserve | retireUpto =>
    cases hs
    trivial
  | resolve d oc =>
    simp only [startCall] at hs
    split_ifs at hs
    cases hs
    cases oc <;> trivial

lemma mem_returned {acks : Finset ℤ} (h : AckOk t th) (hm : d ∈ returned t th weak acks) :
    d ∈ acks ∨ t.outcome d = some .acked ∧ d ≤ t.readHorizon := by
  cases th with
  | resolve e oc pc ret =>
    cases oc with
    | acked =>
      simp only [returned] at hm
      split_ifs at hm with hret
      · rcases Finset.mem_insert.mp hm with rfl | hm
        · refine Or.inr ⟨hret.2, ?_⟩
          have hset : Settled t d := by
            cases pc with
            | signal | fire => exact h
            | load =>
              have hh := hret.1
              simp only [resolveStep] at hh
              split at hh <;> cases hh
            | raise | advCas | truncCas =>
              have hh := hret.1
              simp only [resolveStep] at hh
              split_ifs at hh
            | _ =>
              have hh := hret.1
              cases hh
          obtain ⟨oc, ho, -, hle⟩ := hset
          rw [hret.2] at ho
          cases ho
          exact hle rfl
        · exact Or.inl hm
      · exact Or.inl hm
    | _ => exact Or.inl hm
  | _ => exact Or.inl hm

variable {ι : Type} [DecidableEq ι] [Fintype ι] {s s' : Sys ι} {a : Act ι}

structure AckInv (s : Sys ι) : Prop where
  threads : ∀ i, AckOk s.trk (s.threads i)
  returned : ∀ d ∈ s.ackReturned, s.trk.outcome d = some .acked ∧ d ≤ s.trk.readHorizon

def Act.Raises (s : Sys ι) : Act ι → Prop
  | .go i _ => RaisesFirst s.trk (s.threads i)
  | .call _ _ => True

lemma AckInv.step (hi : SysInv L s) (h : AckInv s) (hf : a.Fresh s) (hr : a.Raises s)
    (hs : step busy s a = some s') : AckInv s' := by
  have he := (hi.step hf hs).2
  have keep : ∀ d, s.trk.outcome d = some .acked ∧ d ≤ s.trk.readHorizon →
      s'.trk.outcome d = some .acked ∧ d ≤ s'.trk.readHorizon :=
    fun d hd => ⟨he.outcome hd.1 rfl, hd.2.trans he.readHorizon⟩
  rcases step_cases hs with ⟨i, c, th, rfl, -, hc, hth, hret⟩ | ⟨i, weak, th, rfl, hc, -, hth, hret⟩
  · refine ⟨fun j => ?_, fun d hd => keep d (h.returned d (hret ▸ hd))⟩
    rw [hth, Function.update_apply]
    split_ifs with hj
    · exact startCall_ackOk hc
    · exact (h.threads j).mono he
  · refine ⟨fun j => ?_, fun d hd => ?_⟩
    · rw [hth, Function.update_apply]
      split_ifs with hj
      · exact threadStep_ackOk hi.trk (hi.threads i) he (h.threads i) hr hc
      · exact (h.threads j).mono he
    · rw [hret] at hd
      rcases mem_returned (h.threads i) hd with hd | hd
      · exact keep d (h.returned d hd)
      · exact keep d hd

end CraftClient.Tracker
