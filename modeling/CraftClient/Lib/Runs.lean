import Mathlib.Algebra.GroupWithZero.Nat
import Mathlib.Data.Nat.Notation
import Mathlib.Tactic.SplitIfs

/-! Guarded runs of a machine whose transitions are given by a partial function. -/

namespace CraftClient.Runs

-- the index types of the runs that are evaluated, for their numerals
instance neZero_one : NeZero 1 := ⟨Nat.one_ne_zero⟩

instance neZero_two : NeZero 2 := ⟨Nat.succ_ne_zero 1⟩

instance neZero_three : NeZero 3 := ⟨Nat.succ_ne_zero 2⟩

instance neZero_five : NeZero 5 := ⟨Nat.succ_ne_zero 4⟩

variable {σ α : Type*} {step : σ → α → Option σ} {ok : σ → α → Prop}

inductive Reach (step : σ → α → Option σ) (ok : σ → α → Prop) (s₀ : σ) : σ → Prop
  | refl : Reach step ok s₀ s₀
  | next {s t : σ} {a : α} :
      Reach step ok s₀ s → ok s a → step s a = some t → Reach step ok s₀ t

def free (_ : σ) (_ : α) : Prop := True

instance (s : σ) (a : α) : Decidable (free s a) := .isTrue trivial

def exec (step : σ → α → Option σ) (ok : σ → α → Prop) [∀ s a, Decidable (ok s a)] (s : σ)
    (as : List α) : Option σ :=
  as.foldlM (fun s a => if ok s a then step s a else none) s

namespace Reach

variable {s₀ s t : σ}

lemma invariant {P : σ → Prop} (h : Reach step ok s₀ s) (h₀ : P s₀)
    (hs : ∀ s a t, P s → ok s a → step s a = some t → P t) : P s := by
  induction h with
  | refl => exact h₀
  | next _ hok he ih => exact hs _ _ _ ih hok he

lemma trans (h : Reach step ok s₀ s) (h' : Reach step ok s t) : Reach step ok s₀ t := by
  induction h' with
  | refl => exact h
  | next _ hok he ih => exact ih.next hok he

lemma related {P : σ → Prop} {R : σ → σ → Prop} (h : Reach step ok s₀ s) (h₀ : P s₀)
    (hs : ∀ s a t, P s → ok s a → step s a = some t → P t ∧ R s t)
    (hr : ∀ s, R s s) (ht : ∀ s t u, R s t → R t u → R s u) : R s₀ s := by
  have hh : P s ∧ R s₀ s := by
    induction h with
    | refl => exact ⟨h₀, hr _⟩
    | next _ hok he ih =>
      obtain ⟨hp, hR⟩ := hs _ _ _ ih.1 hok he
      exact ⟨hp, ht _ _ _ ih.2 hR⟩
  exact hh.2

lemma mono {ok' : σ → α → Prop} (h : Reach step ok s₀ s) (hk : ∀ s a, ok s a → ok' s a) :
    Reach step ok' s₀ s := by
  induction h with
  | refl => exact .refl
  | next _ hok he ih => exact ih.next (hk _ _ hok) he

lemma of_exec [∀ s a, Decidable (ok s a)] (as : List α) (h : exec step ok s₀ as = some s) :
    Reach step ok s₀ s := by
  induction as generalizing s₀ with
  | nil =>
    obtain rfl : s₀ = s := Option.some.inj h
    exact .refl
  | cons a as ih =>
    simp only [exec, List.foldlM_cons] at h
    obtain ⟨u, hu, hr⟩ := Option.bind_eq_some_iff.mp h
    split_ifs at hu with hok
    exact (Reach.next .refl hok hu).trans (ih hr)

lemma exists_of_exec (step : σ → α → Option σ) (ok : σ → α → Prop) [∀ s a, Decidable (ok s a)]
    (s₀ : σ) (as : List α) (p : σ → Bool) (h : (exec step ok s₀ as).any p = true) :
    ∃ s, Reach step ok s₀ s ∧ p s = true := by
  cases hs : exec step ok s₀ as with
  | none => simp [hs] at h
  | some s => exact ⟨s, .of_exec as hs, by simpa [hs] using h⟩

lemma exists_end {P Q : σ → Prop} (rank : σ → ℕ) (h : P s)
    (hs : ∀ s, P s → ¬ Q s → ∃ a t, ok s a ∧ step s a = some t ∧ P t ∧ rank t < rank s) :
    ∃ t, Reach step ok s t ∧ Q t := by
  induction hn : rank s using Nat.strongRecOn generalizing s with
  | ind n ih =>
    by_cases hq : Q s
    · exact ⟨s, .refl, hq⟩
    · obtain ⟨a, t, hok, he, ht, hlt⟩ := hs s h hq
      obtain ⟨u, hu, hq⟩ := ih (rank t) (hn ▸ hlt) ht rfl
      exact ⟨u, (Reach.next .refl hok he).trans hu, hq⟩

end Reach

end CraftClient.Runs
