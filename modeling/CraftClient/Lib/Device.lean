import Mathlib.Data.Finset.Sort

namespace CraftClient

structure DeviceWrite (β α : Type*) where
  covers : β → Bool
  page : β → α

namespace DeviceWrite

variable {β α κ : Type*} {D : β → α} {b : β} {w : DeviceWrite β α} {l l' : List (DeviceWrite β α)}

def perform (D : β → α) (w : DeviceWrite β α) : β → α := fun b => if w.covers b then w.page b else D b

def replay (D : β → α) (l : List (DeviceWrite β α)) : β → α := l.foldl perform D

lemma replay_of_untouched (h : ∀ w ∈ l, w.covers b = false) : replay D l b = D b := by
  induction l generalizing D with
  | nil => rfl
  | cons w l ih =>
    have hw : perform D w b = D b := by simp [perform, h w List.mem_cons_self]
    rw [← hw]
    exact ih fun w' hw' => h w' (List.mem_cons_of_mem w hw')

lemma replay_of_last (hw : w.covers b = true) (hl : ∀ w' ∈ l', w'.covers b = false) :
    replay D (l ++ w :: l') b = w.page b := by
  rw [replay, List.foldl_append, List.foldl_cons]
  refine (replay_of_untouched hl).trans ?_
  rw [perform, if_pos hw]

variable [LinearOrder κ] {A : Finset κ} {W W' : κ → DeviceWrite β α} {d : κ}

def replayIn (D : β → α) (W : κ → DeviceWrite β α) (A : Finset κ) : β → α := replay D (A.sort.map W)

lemma replayIn_congr (h : ∀ a ∈ A, W a = W' a) : replayIn D W A = replayIn D W' A := by
  rw [replayIn, List.map_congr_left fun a ha => h a ((Finset.mem_sort _).mp ha), replayIn]

lemma replayIn_of_untouched (h : ∀ a ∈ A, (W a).covers b = false) : replayIn D W A b = D b := by
  apply replay_of_untouched
  intro w hw
  obtain ⟨a, ha, rfl⟩ := List.mem_map.mp hw
  exact h a ((Finset.mem_sort _).mp ha)

lemma replayIn_of_last (hd : d ∈ A) (hc : (W d).covers b = true)
    (hlast : ∀ a ∈ A, (W a).covers b = true → a ≤ d) : replayIn D W A b = (W d).page b := by
  obtain ⟨l, l', hl⟩ := List.append_of_mem ((Finset.mem_sort (· ≤ ·)).mpr hd)
  have hlt := Finset.sortedLT_sort A
  rw [hl] at hlt
  rw [replayIn, hl, List.map_append, List.map_cons]
  apply replay_of_last hc
  intro w hw
  obtain ⟨a, ha, rfl⟩ := List.mem_map.mp hw
  have hda : d < a := List.rel_of_pairwise_cons (List.pairwise_append.mp hlt.pairwise).2.1 ha
  have hmem : a ∈ A := by
    rw [← Finset.mem_sort (· ≤ ·), hl]
    exact List.mem_append_right l (List.mem_cons_of_mem d ha)
  exact Bool.eq_false_iff.mpr fun h => absurd (hlast a hmem h) hda.not_ge

end DeviceWrite

end CraftClient
