import CraftClient.Lib.Hops
import CraftClient.Tracker.Plan

/-! How `stats` and the first pass of `compute` walk the unresolved slots. -/

namespace CraftClient.Tracker

open StreamTracker

variable {t : DlsnTracker} {upto : ℤ → ℤ} {last F bound h : ℤ}

/-- `completed_upto` of a window whose last allocated slot is `last`, as the source describes it: the last index of the
completed run at or above the hint, or the last allocated slot when every bit that it scanned was set. -/
structure CompletedUpto (done : Finset ℤ) (last : ℤ) (upto : ℤ → ℤ) : Prop where
  allocated : ∀ d ∈ done, d ≤ last
  run : ∀ h u, h ≤ u → u ≤ last → u ∉ done → (∀ d, h ≤ d → d < u → d ∈ done) → upto h = u - 1
  full : ∀ h, (∀ d, h ≤ d → d ≤ last → d ∈ done) → upto h = last

section Upto

lemma CompletedUpto.eq_of_le (hu : CompletedUpto t.tracker.completed last upto) (hle : h ≤ last + 1) :
    upto h = t.tracker.completedUpto h := by
  have hge := t.tracker.completedUpto_ge h
  have hstop := t.tracker.completedUpto_stop h
  have hrun : ∀ d, h ≤ d → d < t.tracker.completedUpto h + 1 → d ∈ t.tracker.completed := fun d hd hlt =>
    t.tracker.completedUpto_mem hd (by omega)
  by_cases hin : t.tracker.completedUpto h + 1 ≤ last
  · rw [hu.run h _ (by omega) hin hstop hrun]
    omega
  · have hall : ∀ d, h ≤ d → d ≤ last → d ∈ t.tracker.completed := fun d hd hl => hrun d hd (by omega)
    rw [hu.full h hall]
    -- the run cannot go past the window
    by_contra hne
    have := hu.allocated _ (t.tracker.completedUpto_mem hle (by omega))
    omega

lemma CompletedUpto.le_last (hu : CompletedUpto t.tracker.completed last upto) (h : ℤ) : upto h ≤ last := by
  by_cases hall : ∀ d, h ≤ d → d ≤ last → d ∈ t.tracker.completed
  · exact (hu.full h hall).le
  · push Not at hall
    obtain ⟨d, hd, hl, hout⟩ := hall
    rw [hu.eq_of_le (by omega)]
    by_contra hlt
    exact hout (t.tracker.completedUpto_mem hd (by omega))

lemma findsNext_of_completedUpto {next : ℤ → Option ℤ} (hnext : ∀ h, F < h → next h =
      if bound < t.tracker.completedUpto h + 1 then none else some (t.tracker.completedUpto h + 1)) :
    Hops.FindsNext (· ∉ t.tracker.completed) (F + 1) bound next := by
  constructor
  · intro h hlo hnone d hd hle
    rw [hnext h (by omega)] at hnone
    split_ifs at hnone with hall
    rw [not_not]
    exact t.tracker.completedUpto_mem hd (by omega)
  · intro h hlo u hsome
    have hge := t.tracker.completedUpto_ge h
    rw [hnext h (by omega)] at hsome
    split_ifs at hsome with hall
    obtain rfl := Option.some.inj hsome
    refine ⟨by omega, by omega, t.tracker.completedUpto_stop h, fun d hd hlt => ?_⟩
    rw [not_not]
    exact t.tracker.completedUpto_mem hd (by omega)

end Upto

section Stats

structure TrackerStats where
  winnerScans : ℕ
  frontier : ℤ
  highestAcked : ℤ
  issued : ℤ
  unresolvedCount : ℕ
  unresolvedSample : List ℤ
  deriving DecidableEq, Repr

def statsNext (upto : ℤ → ℤ) (issued h : ℤ) : Option ℤ :=
  if issued < h then none
  else
    let u := min (upto h) issued + 1
    if issued < u then none else some u

def statsVisit (limit : ℕ) (st : ℕ × List ℤ) (u : ℤ) : ℕ × List ℤ :=
  (st.1 + 1, if st.2.length < limit then st.2 ++ [u] else st.2)

/-- `stats(limit)`, with the slots that its loop has visited; without a result the loop has not ended after `fuel`
rounds. -/
def stats (upto : ℤ → ℤ) (limit fuel : ℕ) (t : DlsnTracker) : Option (List ℤ × TrackerStats) :=
  (Hops.run (statsNext upto t.issued) (statsVisit limit) fuel (t.frontier + 1) (0, [])).map fun r =>
    (r.1, ⟨t.winnerScans, t.frontier, t.highestAcked, t.issued, r.2.1, r.2.2⟩)

lemma statsVisit_foldl (limit : ℕ) (vis : List ℤ) (count : ℕ) {sample : List ℤ} (hs : sample.length ≤ limit) :
    vis.foldl (statsVisit limit) (count, sample) = (count + vis.length, (sample ++ vis).take limit) := by
  induction vis generalizing count sample with
  | nil => rw [List.foldl_nil, List.append_nil, List.take_of_length_le hs, List.length_nil, Nat.add_zero]
  | cons u vis ih =>
    rw [List.foldl_cons, statsVisit]
    simp only
    split_ifs with hroom
    · rw [ih _ (by rw [List.length_append]; exact hroom), List.append_assoc, List.length_cons]
      congr 1
      omega
    · rw [ih _ hs, List.take_append_of_le_length (not_lt.mp hroom), List.take_append_of_le_length (not_lt.mp hroom),
        List.length_cons]
      congr 1
      omega

lemma findsNext_stats (hu : CompletedUpto t.tracker.completed last upto) (hb : bound ≤ F ∨ bound ≤ last + 1) :
    Hops.FindsNext (· ∉ t.tracker.completed) (F + 1) bound (statsNext upto bound) := by
  refine findsNext_of_completedUpto fun h hlo => ?_
  have hge := t.tracker.completedUpto_ge h
  simp only [statsNext]
  by_cases hpast : bound < h
  · rw [if_pos hpast, if_pos (by omega)]
  · rw [if_neg hpast, hu.eq_of_le (by omega)]
    split_ifs with hall hlt hlt
    · rfl
    · omega
    · omega
    · rw [min_eq_left (by omega)]

lemma stats_never (hu : CompletedUpto t.tracker.completed last upto) (hF : t.frontier < t.issued)
    (hI : last + 1 < t.issued) (limit fuel : ℕ) : stats upto limit fuel t = none := by
  have hround : ∀ h ≤ t.issued, ∃ u, statsNext upto t.issued h = some u ∧ u + 1 ≤ t.issued := by
    intro h hh
    have hle := hu.le_last h
    refine ⟨upto h + 1, ?_, by omega⟩
    simp only [statsNext]
    rw [if_neg (by omega), min_eq_left (by omega), if_neg (by omega)]
  rw [stats, Hops.run_eq_none hround hF, Option.map_none]

end Stats

section FirstPass

def passNext (upto : ℤ → ℤ) (Ha h : ℤ) : Option ℤ :=
  let u := upto h + 1
  if Ha < h ∨ Ha < u ∨ u < h then none else some u

def passHits (t : DlsnTracker) (addr len : UInt64) (u : ℤ) : Bool :=
  (t.tracker.find u).all fun s => overlaps addr len s.addr s.len

def passVisit (t : DlsnTracker) (addr len : UInt64) (st : ℤ × Bool × Bool) (u : ℤ) : ℤ × Bool × Bool :=
  if passHits t addr len u then
    (if st.1 < 0 then u else st.1, st.2.1 || (t.tracker.find u).any (fun s => s.outcome = .failed),
      st.2.2 || (t.tracker.find u).isNone)
  else st

def firstPass (upto : ℤ → ℤ) (addr len : UInt64) (fuel : ℕ) (t : DlsnTracker) : Option (List ℤ × ℤ × Bool × Bool) :=
  Hops.run (passNext upto t.highestAcked) (passVisit t addr len) fuel (t.frontier + 1) (-1, false, false)

lemma findsNext_pass (hu : CompletedUpto t.tracker.completed last upto) (hb : bound ≤ F ∨ bound ≤ last + 1) :
    Hops.FindsNext (· ∉ t.tracker.completed) (F + 1) bound (passNext upto bound) := by
  refine findsNext_of_completedUpto fun h hlo => ?_
  have hge := t.tracker.completedUpto_ge h
  simp only [passNext]
  by_cases hpast : bound < h
  · rw [if_pos (.inl hpast), if_pos (by omega)]
  · rw [hu.eq_of_le (by omega)]
    exact if_congr (by omega) rfl rfl

lemma passVisit_umin (t : DlsnTracker) (addr len : UInt64) (vis : List ℤ) (hvis : ∀ u ∈ vis, 0 ≤ u)
    (st : ℤ × Bool × Bool) : (vis.foldl (passVisit t addr len) st).1 =
      if st.1 < 0 then (vis.find? (passHits t addr len)).getD st.1 else st.1 := by
  induction vis generalizing st with
  | nil => simp
  | cons u vis ih =>
    obtain ⟨hu, hvis⟩ := List.forall_mem_cons.mp hvis
    rw [List.foldl_cons, ih hvis, passVisit, List.find?_cons]
    cases hhit : passHits t addr len u with
    | false => rfl
    | true =>
      simp only [if_true]
      split_ifs with hneg
      · omega
      · rfl
      · rfl

def computeAlone (addr len : UInt64) (st : DlsnTracker × (ComputePc ⊕ PlanOutcome)) :
    DlsnTracker × (ComputePc ⊕ PlanOutcome) :=
  match st.2 with
  | .inl pc => computeStep st.1 addr len pc
  | .inr _ => st

lemma computeAlone_pass {addr len : UInt64} {Ha : ℤ} {st res : ℤ × Bool × Bool} {k : ℕ} {vis : List ℤ}
    (hrun : Hops.run (passNext t.tracker.completedUpto Ha) (passVisit t addr len) k h st = some (vis, res)) :
    ∃ n, (computeAlone addr len)^[n] (t, .inl (.scan Ha h st.1 st.2.1 st.2.2)) =
      (t, afterScan t addr len Ha res.1 res.2.1 res.2.2) := by
  induction k generalizing h st vis with
  | zero => cases hrun
  | succ k ih =>
    by_cases hstop : Ha < h ∨ Ha < t.tracker.completedUpto h + 1 ∨ t.tracker.completedUpto h + 1 < h
    · have hnone : passNext t.tracker.completedUpto Ha h = none := by simp only [passNext, if_pos hstop]
      rw [Hops.run_of_none hnone] at hrun
      cases hrun
      refine ⟨1, ?_⟩
      simp only [Function.iterate_one, computeAlone, computeStep, if_pos hstop]
    · set u := t.tracker.completedUpto h + 1 with hu
      have hsome : passNext t.tracker.completedUpto Ha h = some u := by simp only [passNext, if_neg hstop, ← hu]
      rw [Hops.run_of_some hsome] at hrun
      obtain ⟨r, hrest, heq⟩ := Option.map_eq_some_iff.mp hrun
      cases heq
      have hvisit : (computeAlone addr len)^[2] (t, .inl (.scan Ha h st.1 st.2.1 st.2.2)) =
          (t, .inl (.scan Ha (u + 1) (passVisit t addr len st u).1 (passVisit t addr len st u).2.1
            (passVisit t addr len st u).2.2)) := by
        simp only [Function.iterate_succ_apply, Function.iterate_zero, id_eq, computeAlone, computeStep, ← hu,
          if_neg hstop]
        by_cases hhit : passHits t addr len u = true
        · rw [passVisit, if_pos hhit]
          rw [passHits] at hhit
          rw [if_pos hhit]
        · rw [passVisit, if_neg hhit]
          rw [passHits] at hhit
          rw [if_neg hhit]
      obtain ⟨n, hn⟩ := ih hrest
      refine ⟨n + 2, ?_⟩
      rw [Function.iterate_add_apply, hvisit, hn]

lemma firstPass_eq (hu : CompletedUpto t.tracker.completed last upto) (hb : t.highestAcked ≤ last + 1)
    (addr len : UInt64) (fuel : ℕ) :
    firstPass upto addr len fuel t = firstPass t.tracker.completedUpto addr len fuel t := by
  have hnext : passNext upto t.highestAcked = passNext t.tracker.completedUpto t.highestAcked := by
    funext h
    simp only [passNext]
    by_cases hpast : t.highestAcked < h
    · rw [if_pos (.inl hpast), if_pos (.inl hpast)]
    · rw [hu.eq_of_le (by omega)]
  rw [firstPass, firstPass, hnext]

theorem computeAlone_firstPass (hu : CompletedUpto t.tracker.completed last upto) (hb : t.highestAcked ≤ last + 1)
    (hF : t.frontier < t.highestAcked) {addr len : UInt64} {fuel : ℕ} {vis : List ℤ} {res : ℤ × Bool × Bool}
    (hrun : firstPass upto addr len fuel t = some (vis, res)) :
    ∃ n, (computeAlone addr len)^[n] (t, .inl .loadFrontier) =
      (t, afterScan t addr len t.highestAcked res.1 res.2.1 res.2.2) := by
  rw [firstPass_eq hu hb] at hrun
  obtain ⟨n, hn⟩ := computeAlone_pass hrun
  have hload : (computeAlone addr len)^[2] (t, .inl .loadFrontier) =
      (t, .inl (.scan t.highestAcked (t.frontier + 1) (-1) false false)) := by
    simp only [Function.iterate_succ_apply, Function.iterate_zero, id_eq, computeAlone, computeStep,
      if_neg (not_le.mpr hF)]
  exact ⟨n + 2, by rw [Function.iterate_add_apply, hload, hn]⟩

def LeastOr (p : ℤ → Prop) (umin : ℤ) : Prop := (umin = -1 ∧ ∀ d, ¬ p d) ∨ (p umin ∧ ∀ d, p d → umin ≤ d)

lemma leastOr_find {vis : List ℤ} (hs : vis.Pairwise (· < ·)) (hit : ℤ → Bool) :
    LeastOr (fun d => d ∈ vis ∧ hit d = true) ((vis.find? hit).getD (-1)) := by
  cases hf : vis.find? hit with
  | none =>
    refine .inl ⟨rfl, fun d hd => ?_⟩
    exact List.find?_eq_none.mp hf d hd.1 hd.2
  | some u =>
    obtain ⟨hhit, as, bs, rfl, has⟩ := List.find?_eq_some_iff_append.mp hf
    refine .inr ⟨⟨by simp, hhit⟩, fun d hd => ?_⟩
    obtain ⟨hd, hhd⟩ := hd
    rcases List.mem_append.mp hd with hd | hd
    · have := has d hd
      rw [hhd] at this
      cases this
    · rcases List.mem_cons.mp hd with rfl | hd
      · exact le_rfl
      · exact (List.rel_of_pairwise_cons (List.pairwise_append.mp hs).2.1 hd).le

end FirstPass

section Exact

def StatsExact (upto : ℤ → ℤ) (t : DlsnTracker) (limit : ℕ) : Prop :=
  ∃ fuel vis st, stats upto limit fuel t = some (vis, st) ∧ vis.Pairwise (· < ·) ∧
    (∀ d, d ∈ vis ↔ t.frontier < d ∧ d ≤ t.issued ∧ d ∉ t.tracker.completed) ∧
    st.unresolvedCount = vis.length ∧ st.unresolvedSample = vis.take limit

def PassExact (upto : ℤ → ℤ) (t : DlsnTracker) (addr len : UInt64) : Prop :=
  ∃ fuel vis umin flags, firstPass upto addr len fuel t = some (vis, umin, flags) ∧ vis.Pairwise (· < ·) ∧
    (∀ d, d ∈ vis ↔ t.frontier < d ∧ d ≤ t.highestAcked ∧ d ∉ t.tracker.completed) ∧
    LeastOr (fun d => (t.frontier < d ∧ d ≤ t.highestAcked ∧ d ∉ t.tracker.completed) ∧
      ∀ s, t.tracker.find d = some s → overlaps addr len s.addr s.len = true) umin

lemma statsExact_iff (hu : CompletedUpto t.tracker.completed last upto) (limit : ℕ) :
    StatsExact upto t limit ↔ t.issued ≤ t.frontier ∨ t.issued ≤ last + 1 := by
  constructor
  · rintro ⟨fuel, vis, st, hst, -⟩
    by_contra hno
    rw [not_or, not_le, not_le] at hno
    rw [stats_never hu hno.1 hno.2] at hst
    cases hst
  · intro hb
    obtain ⟨k, vis, hrun, hsorted, hmem⟩ := (findsNext_stats hu hb).exists_run (statsVisit limit) le_rfl (0, [])
    rw [statsVisit_foldl limit vis 0 (Nat.zero_le _), Nat.zero_add, List.nil_append] at hrun
    exact ⟨k, vis, _, by rw [stats, hrun]; rfl, hsorted, hmem, rfl, rfl⟩

lemma passExact_iff (hu : CompletedUpto t.tracker.completed last upto) (hF : -1 ≤ t.frontier) (addr len : UInt64) :
    PassExact upto t addr len ↔ t.highestAcked ≤ t.frontier ∨ t.highestAcked ≤ last + 1 := by
  constructor
  · rintro ⟨fuel, vis, umin, flags, hrun, -, hmem, -⟩
    by_contra hno
    rw [not_or, not_le, not_le] at hno
    -- the pass stops behind the window, before it has come to this slot
    have hin : max (t.frontier + 1) (last + 2) ∈ vis := by
      refine (hmem _).mpr ⟨by omega, by omega, fun hd => ?_⟩
      have := hu.allocated _ hd
      omega
    obtain ⟨h, hnext⟩ := Hops.run_visited hrun hin
    simp only [passNext] at hnext
    split_ifs at hnext
    have hle := hu.le_last h
    have := Option.some.inj hnext
    omega
  · intro hb
    obtain ⟨k, vis, hrun, hsorted, hmem⟩ := (findsNext_pass hu hb).exists_run (passVisit t addr len) le_rfl
      (-1, false, false)
    refine ⟨k, vis, _, _, hrun, hsorted, hmem, ?_⟩
    have hnonneg : ∀ u ∈ vis, 0 ≤ u := fun u hv => by
      have := ((hmem u).mp hv).1
      omega
    rw [passVisit_umin t addr len vis hnonneg, if_pos (by decide)]
    have hleast := leastOr_find hsorted (passHits t addr len)
    simpa only [hmem, passHits, Option.all_eq_true, Int.add_one_le_iff] using hleast

/-- Each walk is exact in exactly those states in which at most one slot of its range lies past the last slot that
the window has allocated. -/
theorem gap_hops_exact_iff (hu : CompletedUpto t.tracker.completed last upto) (hF : -1 ≤ t.frontier) :
    ((∀ limit, StatsExact upto t limit) ∧ ∀ addr len, PassExact upto t addr len) ↔
      (t.issued ≤ t.frontier ∨ t.issued ≤ last + 1) ∧ (t.highestAcked ≤ t.frontier ∨ t.highestAcked ≤ last + 1) := by
  simp only [statsExact_iff hu, passExact_iff hu hF, forall_const]

lemma completedUpto_min (hlast : ∀ d ∈ t.tracker.completed, d ≤ last) :
    CompletedUpto t.tracker.completed last fun h => min (t.tracker.completedUpto h) last := by
  refine ⟨hlast, fun h u hle hl hout hrun => ?_, fun h hall => ?_⟩
  · have hge : u - 1 ≤ t.tracker.completedUpto h := t.tracker.le_completedUpto fun d hd hlt => hrun d hd (by omega)
    have hlt : t.tracker.completedUpto h < u := by
      by_contra hno
      exact hout (t.tracker.completedUpto_mem hle (not_lt.mp hno))
    omega
  · exact min_eq_right (t.tracker.le_completedUpto hall)

theorem gap_hops_exact_oneAcked :
    let t : DlsnTracker := { resetAt 16 (-1) 512 with
      nextDlsn := 3
      highestAcked := 1
      tracker := ⟨0, fun d => if d = 1 then some ⟨0, 512, .acked⟩ else none, {1}⟩ }
    let upto := fun h => min (t.tracker.completedUpto h) 9999
    (∀ limit, StatsExact upto t limit) ∧ ∀ addr len, PassExact upto t addr len := by
  intro t upto
  have hlast : ∀ d ∈ t.tracker.completed, d ≤ 9999 := by
    intro d hd
    rw [Finset.mem_singleton.mp hd]
    decide
  exact (gap_hops_exact_iff (completedUpto_min hlast) (le_refl (-1))).mpr ⟨.inr (by decide), .inr (by decide)⟩

theorem stats_hangs_past_window :
    let t : DlsnTracker := { resetAt 16 (-1) 512 with
      nextDlsn := 10002
      frontier := 9999
      highestAcked := 9999
      tracker := ⟨0, fun d => if 0 ≤ d ∧ d ≤ 9999 then some ⟨0, 512, .acked⟩ else none, Finset.Icc 0 9999⟩ }
    let upto := fun h => min (t.tracker.completedUpto h) 9999
    CompletedUpto t.tracker.completed 9999 upto ∧ ∀ limit fuel, stats upto limit fuel t = none := by
  intro t upto
  have hlast : ∀ d ∈ t.tracker.completed, d ≤ 9999 := fun d hd => (Finset.mem_Icc.mp hd).2
  exact ⟨completedUpto_min hlast, stats_never (completedUpto_min hlast) (by decide) (by decide)⟩

end Exact

end CraftClient.Tracker
