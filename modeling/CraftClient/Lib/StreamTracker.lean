import Mathlib.Data.Finset.Basic
import Mathlib.Data.Int.Interval
import Mathlib.Tactic

/-! A window of slots with completion bits, as the users of `sisl::StreamTracker` see it. -/

namespace CraftClient

variable {α : Type*}

structure StreamTracker (α : Type*) where
  base : ℤ
  data : ℤ → Option α
  completed : Finset ℤ

namespace StreamTracker

def emplace (start : ℤ) : StreamTracker α where
  base := start + 1
  data _ := none
  completed := ∅

def find (t : StreamTracker α) (d : ℤ) : Option α :=
  if t.base ≤ d then t.data d else none

def create (t : StreamTracker α) (d : ℤ) (a : α) : StreamTracker α :=
  { t with data := Function.update t.data d (some a) }

def modify (t : StreamTracker α) (d : ℤ) (f : α → α) : StreamTracker α :=
  { t with data := Function.update t.data d ((t.data d).map f) }

def complete (t : StreamTracker α) (d : ℤ) : StreamTracker α :=
  { t with completed := insert d t.completed }

def truncate (t : StreamTracker α) (n : ℤ) : StreamTracker α :=
  { t with base := max t.base (n + 1) }

def scan (done : Finset ℤ) : ℕ → ℤ → ℤ
  | 0, h => h - 1
  | n + 1, h => if h ∈ done then scan done n (h + 1) else h - 1

def completedUpto (t : StreamTracker α) (h : ℤ) : ℤ :=
  scan t.completed t.completed.card h

lemma scan_ge (done : Finset ℤ) (n : ℕ) (h : ℤ) : h - 1 ≤ scan done n h := by
  induction n generalizing h with
  | zero => simp [scan]
  | succ n ih =>
    rw [scan]
    split_ifs
    · have hh := ih (h + 1)
      omega
    · exact le_rfl

lemma scan_mem (done : Finset ℤ) (n : ℕ) (h j : ℤ) (hj : h ≤ j) (hs : j ≤ scan done n h) :
    j ∈ done := by
  induction n generalizing h with
  | zero =>
    simp only [scan] at hs
    omega
  | succ n ih =>
    rw [scan] at hs
    split_ifs at hs with hd
    · rcases eq_or_lt_of_le hj with rfl | hlt
      · exact hd
      · exact ih (h + 1) (by omega) hs
    · omega

lemma scan_stop (done : Finset ℤ) (n : ℕ) (h : ℤ) :
    scan done n h + 1 ∉ done ∨ scan done n h = h + n - 1 := by
  induction n generalizing h with
  | zero => right; simp [scan]
  | succ n ih =>
    rw [scan]
    split_ifs with hd
    · rcases ih (h + 1) with hh | hh
      · exact Or.inl hh
      · right
        push_cast
        omega
    · left
      simpa using hd

lemma completedUpto_ge (t : StreamTracker α) (h : ℤ) : h - 1 ≤ t.completedUpto h :=
  scan_ge _ _ _

lemma completedUpto_mem (t : StreamTracker α) {h j : ℤ} (hj : h ≤ j)
    (hs : j ≤ t.completedUpto h) : j ∈ t.completed :=
  scan_mem _ _ h j hj hs

lemma completedUpto_stop (t : StreamTracker α) (h : ℤ) :
    t.completedUpto h + 1 ∉ t.completed := by
  rcases scan_stop t.completed t.completed.card h with hh | hh
  · exact hh
  -- the fuel ran out, so the run read is all there is
  · intro hm
    have hsub : Finset.Icc h (h + t.completed.card) ⊆ t.completed := by
      intro j hj
      rw [Finset.mem_Icc] at hj
      rcases eq_or_lt_of_le hj.2 with rfl | hlt
      · have he : t.completedUpto h + 1 = h + t.completed.card := by
          simp only [completedUpto, hh]
          omega
        exact he ▸ hm
      · exact t.completedUpto_mem hj.1 (by simp only [completedUpto, hh]; omega)
    have hc := Finset.card_le_card hsub
    rw [Int.card_Icc] at hc
    omega

lemma le_completedUpto (t : StreamTracker α) {h k : ℤ}
    (hk : ∀ j, h ≤ j → j ≤ k → j ∈ t.completed) : k ≤ t.completedUpto h := by
  by_contra hlt
  have hge := t.completedUpto_ge h
  exact t.completedUpto_stop h (hk _ (by omega) (by omega))

lemma find_eq_some {t : StreamTracker α} {d : ℤ} {a : α} :
    t.find d = some a ↔ t.base ≤ d ∧ t.data d = some a := by
  simp [find]

lemma isSome_of_find {t : StreamTracker α} {d : ℤ} (h : ¬ (t.find d).isNone) : (t.data d).isSome := by
  rw [Option.isNone_iff_eq_none] at h
  obtain ⟨a, ha⟩ := Option.ne_none_iff_exists'.mp h
  rw [(find_eq_some.mp ha).2]
  rfl

lemma find_of_base_le {t : StreamTracker α} {d : ℤ} (h : t.base ≤ d) : t.find d = t.data d :=
  if_pos h

@[simp] lemma create_data (t : StreamTracker α) (d e : ℤ) (a : α) :
    (t.create d a).data e = if e = d then some a else t.data e := by
  simp [create, Function.update_apply]

@[simp] lemma modify_data (t : StreamTracker α) (d e : ℤ) (f : α → α) :
    (t.modify d f).data e = if e = d then (t.data d).map f else t.data e := by
  simp [modify, Function.update_apply]

@[simp] lemma mem_complete (t : StreamTracker α) (d e : ℤ) :
    e ∈ (t.complete d).completed ↔ e = d ∨ e ∈ t.completed := by
  simp [complete]

end StreamTracker

end CraftClient
