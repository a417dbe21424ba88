import Mathlib.Logic.Basic

/-! Machines that answer each input, and simulation of one by another under a contract on the inputs. -/

namespace CraftClient.Mealy

variable {σ τ α β : Type*} {step : σ → α → β × σ} {step' : τ → α → β × τ} {ok : τ → α → Prop}

def run (step : σ → α → β × σ) : σ → List α → List β × σ
  | s, [] => ([], s)
  | s, a :: as =>
    let (b, s') := step s a
    let (bs, s'') := run step s' as
    (b :: bs, s'')

def Valid (step : τ → α → β × τ) (ok : τ → α → Prop) : τ → List α → Prop
  | _, [] => True
  | t, a :: as => ok t a ∧ Valid step ok (step t a).2 as

instance decidableValid (step : τ → α → β × τ) (ok : τ → α → Prop) [∀ t a, Decidable (ok t a)] :
    ∀ (t : τ) (as : List α), Decidable (Valid step ok t as)
  | _, [] => .isTrue trivial
  | t, a :: as => @instDecidableAnd _ _ inferInstance (decidableValid step ok (step t a).2 as)

lemma run_simulates {R : σ → τ → Prop}
    (hstep : ∀ s t a, R s t → ok t a → (step s a).1 = (step' t a).1 ∧ R (step s a).2 (step' t a).2) {s : σ} {t : τ}
    (h : R s t) {as : List α} (hv : Valid step' ok t as) :
    (run step s as).1 = (run step' t as).1 ∧ R (run step s as).2 (run step' t as).2 := by
  induction as generalizing s t with
  | nil => exact ⟨rfl, h⟩
  | cons a as ih =>
    obtain ⟨hanswer, hnext⟩ := hstep s t a h hv.1
    obtain ⟨hanswers, hend⟩ := ih hnext hv.2
    exact ⟨congrArg₂ List.cons hanswer hanswers, hend⟩

end CraftClient.Mealy
