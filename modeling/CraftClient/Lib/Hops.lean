import Mathlib.Tactic

/-! A loop over the integers that hops from one of the numbers it looks for to the next. -/

namespace CraftClient.Hops

variable {σ : Type*} {next : ℤ → Option ℤ} {visit : σ → ℤ → σ} {p : ℤ → Prop} {lo bound h : ℤ} {s s' : σ} {k : ℕ}
  {vis : List ℤ}

/-- The loop from `h` on for at most `k` rounds, with the numbers that it has visited and what it made of them;
`next` is the number that a round finds, if it does not end the loop. -/
def run (next : ℤ → Option ℤ) (visit : σ → ℤ → σ) : ℕ → ℤ → σ → Option (List ℤ × σ)
  | 0, _, _ => none
  | k + 1, h, s =>
    match next h with
    | none => some ([], s)
    | some u => (run next visit k (u + 1) (visit s u)).map fun r => (u :: r.1, r.2)

lemma run_of_none (hn : next h = none) (k : ℕ) : run next visit (k + 1) h s = some ([], s) := by
  rw [run, hn]

lemma run_of_some {u : ℤ} (hn : next h = some u) (k : ℕ) :
    run next visit (k + 1) h s = (run next visit k (u + 1) (visit s u)).map fun r => (u :: r.1, r.2) := by
  rw [run, hn]

structure FindsNext (p : ℤ → Prop) (lo bound : ℤ) (next : ℤ → Option ℤ) : Prop where
  ends : ∀ h, lo ≤ h → next h = none → ∀ d, h ≤ d → d ≤ bound → ¬ p d
  finds : ∀ h, lo ≤ h → ∀ u, next h = some u → h ≤ u ∧ u ≤ bound ∧ p u ∧ ∀ d, h ≤ d → d < u → ¬ p d

theorem FindsNext.exists_run (hf : FindsNext p lo bound next) (visit : σ → ℤ → σ) (hlo : lo ≤ h) (s : σ) :
    ∃ k vis, run next visit k h s = some (vis, vis.foldl visit s) ∧ vis.Pairwise (· < ·) ∧
      ∀ d, d ∈ vis ↔ h ≤ d ∧ d ≤ bound ∧ p d := by
  -- on how far the bound still is
  induction hn : (bound + 1 - h).toNat using Nat.strongRecOn generalizing h s with
  | ind n ih =>
    cases hnext : next h with
    | none =>
      refine ⟨1, [], run_of_none hnext 0, .nil, fun d => ⟨fun hd => absurd hd List.not_mem_nil, ?_⟩⟩
      rintro ⟨hge, hle, hp⟩
      exact absurd hp (hf.ends h hlo hnext d hge hle)
    | some u =>
      obtain ⟨hge, hle, hu, hfirst⟩ := hf.finds h hlo u hnext
      obtain ⟨k, vis, hrun, hsorted, hmem⟩ := ih (bound + 1 - (u + 1)).toNat (by omega) (by omega : lo ≤ u + 1)
        (visit s u) rfl
      refine ⟨k + 1, u :: vis, by rw [run_of_some hnext, hrun]; rfl, List.pairwise_cons.mpr ⟨?_, hsorted⟩, fun d => ?_⟩
      · intro d hd
        have := ((hmem d).mp hd).1
        omega
      · rw [List.mem_cons, hmem]
        constructor
        · rintro (rfl | ⟨hd, hb, hp⟩)
          · exact ⟨hge, hle, hu⟩
          · exact ⟨by omega, hb, hp⟩
        · rintro ⟨hd, hb, hp⟩
          rcases lt_trichotomy d u with hlt | heq | hgt
          · exact absurd hp (hfirst d hd hlt)
          · exact .inl heq
          · exact .inr ⟨by omega, hb, hp⟩

theorem run_eq_none {bound : ℤ} (hs : ∀ h ≤ bound, ∃ u, next h = some u ∧ u + 1 ≤ bound) (hb : h ≤ bound)
    (visit : σ → ℤ → σ) (k : ℕ) (s : σ) :
    run next visit k h s = none := by
  induction k generalizing h s with
  | zero => rfl
  | succ k ih =>
    obtain ⟨u, hu, hle⟩ := hs h hb
    rw [run_of_some hu, ih hle]
    rfl

lemma run_visited (hr : run next visit k h s = some (vis, s')) {u : ℤ} (hu : u ∈ vis) : ∃ h, next h = some u := by
  induction k generalizing h s vis with
  | zero => cases hr
  | succ k ih =>
    cases hnext : next h with
    | none =>
      rw [run_of_none hnext] at hr
      cases hr
      exact absurd hu List.not_mem_nil
    | some v =>
      rw [run_of_some hnext] at hr
      obtain ⟨r, hrest, heq⟩ := Option.map_eq_some_iff.mp hr
      cases heq
      rcases List.mem_cons.mp hu with rfl | hu
      · exact ⟨h, hnext⟩
      · exact ih hrest hu

end CraftClient.Hops
