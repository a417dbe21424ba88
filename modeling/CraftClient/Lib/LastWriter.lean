import Mathlib.Order.Basic
import Mathlib.Data.Int.Order.Basic

/-! The last writer of a place in a numbered log. -/

namespace CraftClient.LastWriter

variable {σ β : Type*} {J J' : ℤ → Option σ} {cov : σ → Prop} {val : ℤ → σ → β} {old v : β}
  {a b c d e : ℤ} {s : σ}

def Untouched (J : ℤ → Option σ) (cov : σ → Prop) (a b : ℤ) : Prop :=
  ∀ d s, a < d → d ≤ b → J d = some s → ¬ cov s

def Shows (J : ℤ → Option σ) (cov : σ → Prop) (val : ℤ → σ → β) (old : β) (a b : ℤ) (v : β) : Prop :=
  (∃ d s, a < d ∧ d ≤ b ∧ J d = some s ∧ cov s ∧ Untouched J cov d b ∧ v = val d s) ∨
    Untouched J cov a b ∧ v = old

lemma untouched_self : Untouched J cov a a := fun _ _ h₁ h₂ => absurd h₂ h₁.not_ge

lemma Untouched.trans (h : Untouched J cov a b) (h' : Untouched J cov b c) : Untouched J cov a c := by
  intro d s h₁ h₂
  rcases le_or_gt d b with hle | hgt
  · exact h d s h₁ hle
  · exact h' d s hgt h₂

lemma Untouched.congr (h : Untouched J cov a b) (hJ : ∀ d, a < d → d ≤ b → J' d = J d) :
    Untouched J' cov a b :=
  fun d s h₁ h₂ hs => h d s h₁ h₂ (hJ d h₁ h₂ ▸ hs)

lemma Untouched.le (h : Untouched J cov d b) (he : e ≤ b) (hs : J e = some s) (hc : cov s) : e ≤ d :=
  not_lt.mp fun hlt => h e s hlt he hs hc

lemma shows_self : Shows J cov val old a a old := Or.inr ⟨untouched_self, rfl⟩

lemma shows_last (h₁ : a < d) (h₂ : d ≤ b) (hs : J d = some s) (hc : cov s) (hu : Untouched J cov d b) :
    Shows J cov val old a b (val d s) :=
  Or.inl ⟨d, s, h₁, h₂, hs, hc, hu, rfl⟩

lemma Shows.extend (h : Shows J cov val old a b v) (hu : Untouched J cov b c) (hbc : b ≤ c) :
    Shows J cov val old a c v := by
  rcases h with ⟨d, s, h₁, h₂, hs, hc, hd, hv⟩ | ⟨hd, hv⟩
  · exact Or.inl ⟨d, s, h₁, h₂.trans hbc, hs, hc, hd.trans hu, hv⟩
  · exact Or.inr ⟨hd.trans hu, hv⟩

lemma Shows.trans {mid : β} (h : Shows J cov val old a b mid) (h' : Shows J cov val mid b c v)
    (hab : a ≤ b) (hbc : b ≤ c) : Shows J cov val old a c v := by
  rcases h' with ⟨d, s, h₁, h₂, hs, hc, hd, hv⟩ | ⟨hu, rfl⟩
  · exact Or.inl ⟨d, s, hab.trans_lt h₁, h₂, hs, hc, hd, hv⟩
  · exact h.extend hu hbc

lemma Shows.congr (h : Shows J cov val old a b v) (hJ : ∀ d, a < d → d ≤ b → J' d = J d) :
    Shows J' cov val old a b v := by
  rcases h with ⟨d, s, h₁, h₂, hs, hc, hd, hv⟩ | ⟨hd, hv⟩
  · refine Or.inl ⟨d, s, h₁, h₂, (hJ d h₁ h₂).trans hs, hc, hd.congr fun e he => ?_, hv⟩
    exact hJ e (h₁.trans he)
  · exact Or.inr ⟨hd.congr hJ, hv⟩

lemma Shows.unique {w : β} (h : Shows J cov val old a b v) (h' : Shows J cov val old a b w) : v = w := by
  rcases h with ⟨d, s, h₁, h₂, hs, hc, hd, rfl⟩ | ⟨hd, rfl⟩ <;>
    rcases h' with ⟨e, t, h₁', h₂', ht, hc', he, rfl⟩ | ⟨he, rfl⟩
  · obtain rfl : d = e := (he.le h₂ hs hc).antisymm (hd.le h₂' ht hc')
    rw [hs] at ht
    cases ht
    rfl
  · exact absurd hc (he d s h₁ h₂ hs)
  · exact absurd hc' (hd e t h₁' h₂' ht)
  · rfl

end CraftClient.LastWriter
