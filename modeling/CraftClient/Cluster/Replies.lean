import CraftClient.Cluster.Model
import CraftClient.Replica.Journal
import CraftClient.Tracker.Model

namespace CraftClient.Cluster

open Replica Router Tracker

variable {n : ℕ} {d upto : ℤ} {empties : List ℤ} {th th' : Thread}

inductive RetireRun (upto : ℤ) (empties : List ℤ) : Thread → Prop
  | call : RetireRun upto empties (.retireHi upto empties)
  | next {t t' : DlsnTracker} {weak : Bool} {th th' : Thread} : RetireRun upto empties th →
      threadStep t weak th = some (t', th') → RetireRun upto empties th'

def RetiresFrame (upto : ℤ) (empties : List ℤ) (fr : RetireFrame) : Prop :=
  fr.empties = empties ∧ fr.hi ≤ upto

def Retires (upto : ℤ) (empties : List ℤ) : Thread → Prop
  | .idle => True
  | .retireHi hi es | .retireFrom hi es => es = empties ∧ hi ≤ upto
  | .retireScan fr => RetiresFrame upto empties fr
  | .retireVisit fr u => RetiresFrame upto empties fr ∧ u ≤ upto
  | .retireFill fr u => RetiresFrame upto empties fr ∧ u ≤ upto ∧ u ∉ empties
  | .resolve u oc _ ret => (∃ fr, ret = some fr ∧ RetiresFrame upto empties fr) ∧ u ≤ upto ∧
    (oc = .acked → u ∉ empties)
  | .create _ _ _ => False

lemma Retires.step {t t' : DlsnTracker} {weak : Bool} (h : Retires upto empties th)
    (hs : threadStep t weak th = some (t', th')) : Retires upto empties th' := by
  cases th with
  | idle => cases hs
  | create => cases h
  | resolve u oc pc ret =>
    obtain ⟨⟨fr, rfl, hfr⟩, hu⟩ := h
    simp only [threadStep] at hs
    split at hs
    all_goals cases hs
    · exact ⟨⟨fr, rfl, hfr⟩, hu⟩
    · exact hfr
  | retireHi hi es =>
    cases hs
    exact ⟨h.1, (min_le_left _ _).trans h.2⟩
  | retireFrom hi es =>
    cases hs
    exact h
  | retireScan fr =>
    cases hs
    split_ifs with hstop
    · trivial
    · have hle : fr.hi ≤ upto := h.2
      exact ⟨h, by omega⟩
  | retireVisit fr u =>
    cases hs
    obtain ⟨hfr, hu⟩ := h
    split_ifs with hf hmem
    · exact hfr
    · exact ⟨⟨_, rfl, hfr⟩, hu, nofun⟩
    · exact ⟨hfr, hu, hfr.1 ▸ hmem⟩
  | retireFill fr u =>
    cases hs
    exact ⟨⟨fr, rfl, h.1⟩, h.2.1, fun _ => h.2.2⟩

lemma RetireRun.retires (h : RetireRun upto empties th) : Retires upto empties th := by
  induction h with
  | call => exact ⟨rfl, le_rfl⟩
  | next _ hs ih => exact ih.step hs

lemma roundStep_reply {members members' : Fin n → MemReplica} {c : RoundCall n} {pc : RoundPc n}
    {res : ResolutionResult} (h : roundStep members c pc = (members', .inr res)) :
    pc = .reply ∧ members' = members ∧ res = ⟨c.upto, (members c.caller).peekEmpties c.upto⟩ := by
  cases pc with
  | reply =>
    cases h
    exact ⟨rfl, rfl, rfl⟩
  | scan d rest copy =>
    cases rest <;> cases copy <;> simp [roundStep] at h
  | floor rest | mark _ rest | fill _ rest | install _ rest | sync rest =>
    cases rest <;> simp [roundStep] at h

theorem replies_exact_iff :
    (∀ (members members' : Fin n → MemReplica) (c : RoundCall n) (pc : RoundPc n)
      (res : ResolutionResult), roundStep members c pc = (members', .inr res) →
      res.resolvedUpto = c.upto ∧ ReplyExact (members' c.caller) res) ∧
    (∀ (r r' : MemReplica) (hdr : ClientHdr) (upto : ℤ) (res : ResolutionResult),
      r.doResolveLocal hdr upto = .ok (res, r') → res.resolvedUpto = upto ∧
      (ReplyExact r' res ↔ ∀ d, d ≤ r.commitLsn → d ≤ upto → ¬ HoldsEmpty r d)) ∧
    ∀ (r : MemReplica) (res : ResolutionResult) (d : ℤ) (pc : ResolvePc) (ret : Option RetireFrame),
      ReplyExact r res → RetireRun res.resolvedUpto res.emptySlots (.resolve d .acked pc ret) →
      ¬ HoldsEmpty r d := by
  refine ⟨fun members members' c pc res h => ?_, fun r r' hdr upto res h => ?_,
    fun r res d pc ret hex hrun hem => ?_⟩
  · obtain ⟨-, rfl, rfl⟩ := roundStep_reply h
    exact ⟨rfl, replyExact_peekEmpties _ _⟩
  · exact ⟨(doResolveLocal_ok h).1, replyExact_doResolveLocal_iff h⟩
  · obtain ⟨-, hle, hnot⟩ := hrun.retires
    exact hnot rfl ((hex.2 d).mpr ⟨hle, hem⟩)

section Runs

def loneReplica : MemReplica := (MemReplica.new 4096).coldApplyLogin 7 1

def loneHdr : ClientHdr := ⟨1, -1, -1, 7⟩

lemma exists_of_toOption_any {ε α : Type} {x : Except ε α} {p : α → Bool}
    (h : x.toOption.any p = true) : ∃ a, x = .ok a ∧ p a = true := by
  cases x with
  | error e => cases h
  | ok a => exact ⟨a, rfl, h⟩

theorem replies_exact_firstRound : ∃ r' res,
    loneReplica.doResolveLocal loneHdr 0 = .ok (res, r') ∧ res = ⟨0, [0]⟩ ∧ ReplyExact r' res := by
  obtain ⟨⟨res, r'⟩, hr, hp⟩ := exists_of_toOption_any (x := loneReplica.doResolveLocal loneHdr 0)
    (p := fun a => decide (a.1 = ⟨0, [0]⟩)) (by decide +kernel)
  refine ⟨r', res, hr, of_decide_eq_true hp, ?_⟩
  refine ((replies_exact_iff (n := 1)).2.1 _ r' loneHdr 0 res hr).2.mpr fun d _ _ hem => ?_
  obtain ⟨s, hs, -⟩ := hem
  simp [loneReplica, MemReplica.coldApplyLogin, MemReplica.new] at hs

def retireSlotZero (res : ResolutionResult) : List (Act Unit) :=
  [.call () (.reserve 0 4096), .go () false, .call () (.resolve 0 .failed), .go () false, .go () false,
    .go () false, .call () (.retireUpto res.resolvedUpto res.emptySlots)] ++
    List.replicate 15 (.go () false)

def omitsVerdict (b : ResolutionResult × MemReplica) : Bool :=
  decide (b.1 = ⟨0, []⟩) && (b.2.journal.find 0).any MemJournalSlot.isEmpty &&
    (Runs.exec (step false) Runs.free (.start (resetAt 1 (-1) 4096)) (retireSlotZero b.1)).any
      fun s : Sys Unit => decide (s.trk.outcome 0 = some .acked)

theorem second_reply_omits_verdict : ∃ r₁ r₂ res₁ res₂,
    loneReplica.doResolveLocal loneHdr 0 = .ok (res₁, r₁) ∧
      r₁.doResolveLocal loneHdr 0 = .ok (res₂, r₂) ∧ res₁ = ⟨0, [0]⟩ ∧ res₂ = ⟨0, []⟩ ∧
      HoldsEmpty r₂ 0 ∧ ¬ ReplyExact r₂ res₂ ∧
      ∃ s : Sys Unit, Runs.exec (step false) Runs.free (.start (resetAt 1 (-1) 4096))
        (retireSlotZero res₂) = some s ∧ s.trk.outcome 0 = some .acked := by
  obtain ⟨⟨res₁, r₁⟩, h₁, hp⟩ := exists_of_toOption_any (x := loneReplica.doResolveLocal loneHdr 0)
    (p := fun a => decide (a.1 = ⟨0, [0]⟩) &&
      (a.2.doResolveLocal loneHdr 0).toOption.any omitsVerdict) (by decide +kernel)
  obtain ⟨hl₁, hp⟩ := Bool.and_eq_true_iff.mp hp
  obtain ⟨⟨res₂, r₂⟩, h₂, hp⟩ := exists_of_toOption_any hp
  simp only [omitsVerdict, Bool.and_eq_true, decide_eq_true_eq, Option.any_eq_true] at hl₁ hp
  obtain ⟨⟨hl₂, hem⟩, hrun⟩ := hp
  refine ⟨r₁, r₂, res₁, res₂, h₁, h₂, hl₁, hl₂, hem, fun hex => ?_, hrun⟩
  have hin := (hex.2 0).mpr ⟨by rw [hl₂], hem⟩
  rw [hl₂] at hin
  cases hin

end Runs

end CraftClient.Cluster
