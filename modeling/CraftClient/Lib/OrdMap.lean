import Mathlib.Order.Basic
import Mathlib.Data.List.Basic
import Mathlib.Tactic

namespace CraftClient

variable {K V : Type*} [LinearOrder K]

structure OrdMap (K V : Type*) [LinearOrder K] where
  entries : List (K × V)
  sorted : entries.Pairwise fun a b => a.1 < b.1

namespace OrdMap

def empty : OrdMap K V := ⟨[], .nil⟩

def find (m : OrdMap K V) (k : K) : Option V := (m.entries.find? fun e => e.1 = k).map Prod.snd

def insert (m : OrdMap K V) (k : K) (v : V) : OrdMap K V where
  entries := m.entries.filter (fun e => e.1 < k) ++ (k, v) :: m.entries.filter fun e => k < e.1
  sorted := by
    refine List.pairwise_append.mpr ⟨m.sorted.filter _, List.pairwise_cons.mpr ⟨?_, m.sorted.filter _⟩, ?_⟩
    · intro e he
      simpa using (List.mem_filter.mp he).2
    · intro a ha b hb
      have hak : a.1 < k := by simpa using (List.mem_filter.mp ha).2
      rcases List.mem_cons.mp hb with rfl | hb
      · exact hak
      · exact hak.trans (by simpa using (List.mem_filter.mp hb).2)

def truncateAbove (m : OrdMap K V) (k : K) : OrdMap K V where
  entries := m.entries.filter fun e => e.1 ≤ k
  sorted := m.sorted.filter _

def erase (m : OrdMap K V) (k : K) : OrdMap K V where
  entries := m.entries.filter fun e => e.1 ≠ k
  sorted := m.sorted.filter _

def eraseFrom (m : OrdMap K V) (k : K) : OrdMap K V where
  entries := m.entries.filter fun e => e.1 < k
  sorted := m.sorted.filter _

variable {m : OrdMap K V} {k l : K} {v w : V}

lemma mem_unique {a b : K × V} (ha : a ∈ m.entries) (hb : b ∈ m.entries) (h : a.1 = b.1) : a = b := by
  have hn : (m.entries.map Prod.fst).Nodup := List.pairwise_map.mpr (m.sorted.imp ne_of_lt)
  exact List.inj_on_of_nodup_map hn ha hb h

lemma find_eq_some : m.find k = some v ↔ (k, v) ∈ m.entries := by
  constructor
  · intro h
    obtain ⟨e, he, rfl⟩ := Option.map_eq_some_iff.mp h
    have hk : e.1 = k := by simpa using List.find?_some he
    exact hk ▸ List.mem_of_find?_eq_some he
  · intro h
    have hs : (m.entries.find? fun e => e.1 = k).isSome := by
      rw [List.find?_isSome]
      exact ⟨(k, v), h, by simp⟩
    obtain ⟨e, he⟩ := Option.isSome_iff_exists.mp hs
    have hk : e.1 = k := by simpa using List.find?_some he
    have heq : e = (k, v) := mem_unique (List.mem_of_find?_eq_some he) h hk
    rw [find, he, heq]
    rfl

lemma ext_find {m m' : OrdMap K V} (h : ∀ k, m.find k = m'.find k) : m = m' := by
  have hirr : Std.Irrefl fun a b : K × V => a.1 < b.1 := ⟨fun a => lt_irrefl a.1⟩
  have hasymm : Std.Antisymm fun a b : K × V => a.1 < b.1 := ⟨fun a b hab hba => absurd hba hab.not_gt⟩
  have hentries : m.entries = m'.entries := by
    apply m.sorted.eq_of_mem_iff m'.sorted
    intro e
    rw [← find_eq_some, ← find_eq_some, h]
  cases m
  cases m'
  cases hentries
  rfl

@[simp] lemma find_empty : (empty : OrdMap K V).find k = none := rfl

@[simp] lemma find_insert : (m.insert k v).find l = if l = k then some v else m.find l := by
  apply Option.ext
  intro w
  rw [find_eq_some, insert, List.mem_append, List.mem_cons, List.mem_filter, List.mem_filter]
  split_ifs with h
  · subst h
    simp [eq_comm]
  · rw [find_eq_some]
    simp only [Prod.mk.injEq, h, false_and, false_or, decide_eq_true_eq]
    rcases lt_or_gt_of_ne h with hlt | hlt
    · simp [hlt, hlt.not_gt]
    · simp [hlt, hlt.not_gt]

@[simp] lemma find_erase : (m.erase k).find l = if l = k then none else m.find l := by
  apply Option.ext
  intro w
  rw [find_eq_some, erase, List.mem_filter]
  split_ifs with h
  · simp [h]
  · simp [h, find_eq_some]

lemma find_foldl_erase (ks : List K) (m : OrdMap K V) :
    (ks.foldl erase m).find l = if l ∈ ks then none else m.find l := by
  induction ks generalizing m with
  | nil => simp
  | cons k ks ih =>
    rw [List.foldl_cons, ih, find_erase]
    by_cases hk : l = k
    · simp [hk]
    · simp [hk]

@[simp] lemma find_eraseFrom : (m.eraseFrom k).find l = if l < k then m.find l else none := by
  apply Option.ext
  intro w
  rw [find_eq_some, eraseFrom, List.mem_filter]
  split_ifs with h
  · simp [h, find_eq_some]
  · simp [h]

lemma entries_eq {es : List (K × V)} (hes : es.Pairwise fun a b => a.1 < b.1)
    (h : ∀ k v, m.find k = some v ↔ (k, v) ∈ es) : m.entries = es := by
  suffices hm : m = ⟨es, hes⟩ from congrArg entries hm
  apply ext_find
  intro k
  apply Option.ext
  intro v
  rw [h, find_eq_some]

lemma mem_takeWhile_le (u : K) {e : K × V} :
    e ∈ m.entries.takeWhile (fun e => e.1 ≤ u) ↔ e ∈ m.entries ∧ e.1 ≤ u := by
  suffices h : ∀ l : List (K × V), l.Pairwise (fun a b => a.1 < b.1) →
      (e ∈ l.takeWhile (fun e => e.1 ≤ u) ↔ e ∈ l ∧ e.1 ≤ u) from h _ m.sorted
  intro l hl
  induction l with
  | nil => simp
  | cons a l ih =>
    obtain ⟨ha, hl⟩ := List.pairwise_cons.mp hl
    by_cases hau : a.1 ≤ u
    · simp only [List.takeWhile_cons, hau, decide_true, if_true, List.mem_cons, ih hl]
      constructor
      · rintro (rfl | ⟨he, hu⟩)
        · exact ⟨Or.inl rfl, hau⟩
        · exact ⟨Or.inr he, hu⟩
      · rintro ⟨rfl | he, hu⟩
        · exact Or.inl rfl
        · exact Or.inr ⟨he, hu⟩
    · simp only [List.takeWhile_cons, hau, decide_false, Bool.false_eq_true, if_false, List.not_mem_nil,
        false_iff, List.mem_cons, not_and]
      rintro (rfl | he) hu
      · exact hau hu
      · exact hau ((ha e he).le.trans hu)

lemma mem_dropWhile_lt (k : K) {e : K × V} :
    e ∈ m.entries.dropWhile (fun e => e.1 < k) ↔ e ∈ m.entries ∧ k ≤ e.1 := by
  suffices h : ∀ l : List (K × V), l.Pairwise (fun a b => a.1 < b.1) →
      (e ∈ l.dropWhile (fun e => e.1 < k) ↔ e ∈ l ∧ k ≤ e.1) from h _ m.sorted
  intro l hl
  induction l with
  | nil => simp
  | cons a l ih =>
    obtain ⟨ha, hl⟩ := List.pairwise_cons.mp hl
    by_cases hak : a.1 < k
    · simp only [List.dropWhile_cons, hak, decide_true, if_true, List.mem_cons, ih hl]
      constructor
      · rintro ⟨he, hk⟩
        exact ⟨Or.inr he, hk⟩
      · rintro ⟨rfl | he, hk⟩
        · exact absurd hak (not_lt.mpr hk)
        · exact ⟨he, hk⟩
    · simp only [List.dropWhile_cons, hak, decide_false, Bool.false_eq_true, if_false, List.mem_cons,
        iff_self_and]
      rintro (rfl | he)
      · exact not_lt.mp hak
      · exact (not_lt.mp hak).trans (ha e he).le

lemma find?_reverse {p : K × V → Bool} {e : K × V} (he : e ∈ m.entries) (hp : p e = true)
    (htop : ∀ e' ∈ m.entries, p e' = true → e'.1 ≤ e.1) : m.entries.reverse.find? p = some e := by
  have hs : (m.entries.reverse.find? p).isSome := by
    rw [List.find?_isSome]
    exact ⟨e, List.mem_reverse.mpr he, hp⟩
  obtain ⟨f, hf⟩ := Option.isSome_iff_exists.mp hs
  obtain ⟨hpf, as, bs, hsplit, has⟩ := List.find?_eq_some_iff_append.mp hf
  have hmem : f ∈ m.entries := List.mem_reverse.mp (List.mem_of_find?_eq_some hf)
  have hsorted := List.pairwise_reverse.mpr m.sorted
  rw [hsplit] at hsorted
  -- `e` is not passed over, and what comes behind `f` is below it
  have hle : e.1 ≤ f.1 := by
    have hin : e ∈ as ++ f :: bs := hsplit ▸ List.mem_reverse.mpr he
    rcases List.mem_append.mp hin with h | h
    · have hnot := has e h
      simp [hp] at hnot
    · rcases List.mem_cons.mp h with rfl | h
      · exact le_rfl
      · exact (List.rel_of_pairwise_cons (List.pairwise_append.mp hsorted).2.1 h).le
  rw [hf, mem_unique hmem he ((htop f hmem hpf).antisymm hle)]

end OrdMap

end CraftClient
