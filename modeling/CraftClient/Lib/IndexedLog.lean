import CraftClient.Lib.OrdMap

namespace CraftClient

structure IndexedLog (α : Type*) where
  start : ℕ
  entries : List α

namespace IndexedLog

variable {α : Type*} {l : IndexedLog α} {i j last : ℕ} {a : α} {new : List α}

def next (l : IndexedLog α) : ℕ := l.start + l.entries.length

def get (l : IndexedLog α) (i : ℕ) : Option α := if i < l.start then none else l.entries[i - l.start]?

def between (l : IndexedLog α) (i j : ℕ) : List α := (l.entries.drop (i - l.start)).take (j - i)

def append (l : IndexedLog α) (a : α) : IndexedLog α := { l with entries := l.entries ++ [a] }

def rewriteFrom (l : IndexedLog α) (i : ℕ) (a : α) : IndexedLog α :=
  { l with entries := l.entries.take (i - l.start) ++ [a] }

def compact (l : IndexedLog α) (last : ℕ) : IndexedLog α :=
  if l.start ≤ last then ⟨last + 1, l.entries.drop (last + 1 - l.start)⟩ else l

/-- `new` takes the place of the entries from `i` on that it is long enough to cover. A log without entries
starts at `i`, or over again when there is nothing new. -/
def splice (l : IndexedLog α) (i : ℕ) (new : List α) : IndexedLog α :=
  if l.entries = [] then ⟨if new = [] then 1 else i, new⟩
  else { l with entries := l.entries.take (i - l.start) ++ new ++ l.entries.drop (i - l.start + new.length) }

def numbered (l : IndexedLog α) : List (ℕ × α) := (l.entries.zipIdx l.start).map Prod.swap

lemma get_of_lt {start : ℕ} {es : List α} (h : i < start) : (⟨start, es⟩ : IndexedLog α).get i = none := if_pos h

lemma get_of_le {start : ℕ} {es : List α} (h : start ≤ i) : (⟨start, es⟩ : IndexedLog α).get i = es[i - start]? :=
  if_neg h.not_gt

lemma get_eq_some : l.get i = some a ↔ l.start ≤ i ∧ l.entries[i - l.start]? = some a := by
  rcases lt_or_ge i l.start with h | h
  · simp [get_of_lt h, h]
  · simp [get_of_le h, h]

lemma get_isSome : (l.get i).isSome = true ↔ l.start ≤ i ∧ i < l.next := by
  rw [next]
  rcases lt_or_ge i l.start with h | h
  · simp [get_of_lt h, h]
  · simp only [get_of_le h, isSome_getElem?, h, true_and]
    omega

lemma mem_numbered : (i, a) ∈ l.numbered ↔ l.get i = some a := by
  rw [numbered, get_eq_some, ← List.mk_mem_zipIdx_iff_le_and_getElem?_sub, List.mem_map]
  constructor
  · rintro ⟨⟨b, j⟩, hmem, heq⟩
    cases heq
    exact hmem
  · intro hmem
    exact ⟨(a, i), hmem, rfl⟩

lemma numbered_sorted : l.numbered.Pairwise fun a b => a.1 < b.1 := by
  obtain ⟨start, entries⟩ := l
  simp only [numbered]
  induction entries generalizing start with
  | nil => exact List.Pairwise.nil
  | cons a entries ih =>
    rw [List.zipIdx_cons, List.map_cons, List.pairwise_cons]
    refine ⟨?_, ih (start + 1)⟩
    rintro ⟨i, b⟩ hmem
    have hget := mem_numbered (l := ⟨start + 1, entries⟩).mp hmem
    exact (get_eq_some.mp hget).1

lemma length_numbered : l.numbered.length = l.entries.length := by rw [numbered, List.length_map, List.length_zipIdx]

lemma get_append : (l.append a).get i = if i = l.next then some a else l.get i := by
  obtain ⟨start, es⟩ := l
  rw [append, next]
  rcases lt_or_ge i start with h | h
  · rw [get_of_lt h, get_of_lt h, if_neg (by simp only; omega)]
  · rw [get_of_le h, get_of_le h, List.getElem?_append]
    grind

lemma get_rewriteFrom (h₁ : l.start ≤ i) (h₂ : i ≤ l.next) :
    (l.rewriteFrom i a).get j = if j = i then some a else if j < i then l.get j else none := by
  obtain ⟨start, es⟩ := l
  simp only [next] at h₁ h₂
  have hlen : (es.take (i - start)).length = i - start := by
    rw [List.length_take]
    omega
  rw [rewriteFrom]
  rcases lt_or_ge j start with h | h
  · rw [get_of_lt h, get_of_lt h, if_neg (by omega), ite_self]
  · rw [get_of_le h, get_of_le h, List.getElem?_append, hlen, List.getElem?_take]
    grind

lemma get_compact : (l.compact last).get i = if i ≤ last then none else l.get i := by
  obtain ⟨start, es⟩ := l
  rw [compact]
  simp only
  split_ifs with h₁ h₂ h₂
  · exact get_of_lt (Nat.lt_succ_of_le h₂)
  · rw [get_of_le (by omega), get_of_le (by omega), List.getElem?_drop]
    congr 1
    omega
  · exact get_of_lt (by omega)
  · rfl

lemma get_splice (hat : l.next = l.start ∨ l.start ≤ i ∧ i ≤ l.next) :
    (l.splice i new).get j = if i ≤ j ∧ j < i + new.length then new[j - i]? else l.get j := by
  obtain ⟨start, es⟩ := l
  simp only [next, Nat.add_eq_left, List.length_eq_zero_iff] at hat
  simp only [splice]
  by_cases hes : es = []
  · rw [if_pos hes, hes]
    rcases lt_or_ge j i with h | h
    · grind [get]
    · grind [get]
  · obtain ⟨h₁, h₂⟩ := hat.resolve_left hes
    rw [if_neg hes]
    rcases lt_or_ge j start with h | h
    · rw [get_of_lt h, get_of_lt h, if_neg (by omega)]
    · rw [get_of_le h, get_of_le h, List.append_assoc, List.getElem?_append, List.getElem?_append, List.getElem?_take,
        List.getElem?_drop, List.length_take, Nat.min_eq_left (by omega)]
      grind

lemma splice_start (h : (l.splice i new).entries = []) : (l.splice i new).start = 1 := by
  rw [splice] at h ⊢
  split_ifs at h ⊢ with hes hnew
  · rfl
  · exact absurd h hnew
  · simp only [List.append_eq_nil_iff] at h
    obtain ⟨⟨htake, hnew⟩, hdrop⟩ := h
    rw [hnew, List.length_nil, Nat.add_zero] at hdrop
    refine absurd ?_ hes
    rw [← List.take_append_drop (i - l.start) l.entries, htake, hdrop, List.append_nil]

lemma next_splice (new : List α) (hat : l.next = l.start ∨ l.start ≤ i ∧ i ≤ l.next) :
    new = [] ∨ i + new.length ≤ (l.splice i new).next := by
  by_cases hnew : new = []
  · exact Or.inl hnew
  · right
    rw [next] at hat ⊢
    rw [splice, if_neg hnew]
    split_ifs with hes
    · exact le_rfl
    · have hlen := List.length_pos_iff.mpr hes
      simp only [List.length_append, List.length_take]
      omega

lemma length_between (h₁ : l.start ≤ i) (h₂ : j ≤ l.next) : (l.between i j).length = j - i := by
  rw [next] at h₂
  rw [between, List.length_take, List.length_drop]
  omega

lemma exists_get (h₁ : l.start ≤ i) (h₂ : i < l.next) : ∃ a, l.get i = some a :=
  Option.isSome_iff_exists.mp (get_isSome.mpr ⟨h₁, h₂⟩)

lemma between_succ {k : ℕ} (h : l.get i = some a) :
    l.between i (i + (k + 1)) = a :: l.between (i + 1) (i + 1 + k) := by
  obtain ⟨hle, hget⟩ := get_eq_some.mp h
  obtain ⟨hlt, rfl⟩ := List.getElem?_eq_some_iff.mp hget
  rw [between, between, List.drop_eq_getElem_cons hlt, Nat.add_sub_cancel_left, Nat.add_sub_cancel_left,
    List.take_succ_cons, ← Nat.sub_add_comm hle]

lemma between_self : l.between i i = [] := by rw [between, Nat.sub_self, List.take_zero]

lemma mapM_range' {β : Type*} {f : ℕ → Option β} {g : α → β} (hf : ∀ j a, l.get j = some a → f j = some (g a))
    {k : ℕ} (h₁ : l.start ≤ i) (h₂ : i + k ≤ l.next) :
    (List.range' i k).mapM f = some ((l.between i (i + k)).map g) := by
  induction k generalizing i with
  | zero => rw [Nat.add_zero, between_self]; rfl
  | succ k ih =>
    obtain ⟨a, ha⟩ := exists_get h₁ (by omega : i < l.next)
    rw [List.range'_succ, List.mapM_cons, hf i a ha, ih (by omega) (by omega), between_succ ha]
    rfl

end IndexedLog

end CraftClient
