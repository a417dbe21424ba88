import Mathlib.Order.MinMax
import Mathlib.Data.List.Pairwise
import Mathlib.Tactic

/-! A map kept as disjoint half-open segments, with the pointwise meaning of `boost::icl::interval_map`. -/

namespace CraftClient

variable {K V : Type*} [LinearOrder K]

structure Segment (K V : Type*) where
  lo : K
  hi : K
  val : V
  deriving DecidableEq, Repr

namespace Segment

def Contains (s : Segment K V) (x : K) : Prop := s.lo ≤ x ∧ x < s.hi

def Apart (s t : Segment K V) : Prop := s.hi ≤ t.lo ∨ t.hi ≤ s.lo

instance (s : Segment K V) (x : K) : Decidable (s.Contains x) := inferInstanceAs (Decidable (_ ∧ _))

def cut (a b : K) (s : Segment K V) : List (Segment K V) :=
  (if s.lo < min s.hi a then [⟨s.lo, min s.hi a, s.val⟩] else []) ++
    (if max s.lo b < s.hi then [⟨max s.lo b, s.hi, s.val⟩] else [])

lemma mem_cut {a b : K} {s t : Segment K V} (h : t ∈ s.cut a b) :
    t.val = s.val ∧ s.lo ≤ t.lo ∧ t.hi ≤ s.hi ∧ (t.hi ≤ a ∨ b ≤ t.lo) := by
  rw [cut, List.mem_append] at h
  rcases h with h | h
  · split_ifs at h
    · rw [List.mem_singleton.mp h]
      exact ⟨rfl, le_rfl, min_le_left _ _, Or.inl (min_le_right _ _)⟩
    · cases h
  · split_ifs at h
    · rw [List.mem_singleton.mp h]
      exact ⟨rfl, le_max_left _ _, le_rfl, Or.inr (le_max_right _ _)⟩
    · cases h

lemma exists_cut {a b x : K} {s : Segment K V} (hx : s.Contains x) (hout : ¬ (a ≤ x ∧ x < b)) :
    ∃ t ∈ s.cut a b, t.Contains x := by
  obtain ⟨h₁, h₂⟩ := hx
  rcases lt_or_ge x a with hlt | hge
  · refine ⟨⟨s.lo, min s.hi a, s.val⟩, ?_, h₁, lt_min h₂ hlt⟩
    rw [cut, if_pos (h₁.trans_lt (lt_min h₂ hlt))]
    simp
  · have hb : b ≤ x := not_lt.mp fun hlt => hout ⟨hge, hlt⟩
    refine ⟨⟨max s.lo b, s.hi, s.val⟩, ?_, max_le h₁ hb, h₂⟩
    rw [cut, if_pos ((max_le h₁ hb).trans_lt h₂)]
    simp

lemma Apart.of_bounds {s t u v : Segment K V} (h : s.Apart t) (hs : s.lo ≤ u.lo ∧ u.hi ≤ s.hi)
    (ht : t.lo ≤ v.lo ∧ v.hi ≤ t.hi) : u.Apart v :=
  h.imp (fun h => (hs.2.trans h).trans ht.1) fun h => (ht.2.trans h).trans hs.1

lemma pairwise_cut {a b : K} (hab : a ≤ b) (s : Segment K V) : (s.cut a b).Pairwise Apart := by
  rw [cut]
  split_ifs
  · refine List.pairwise_pair.mpr (Or.inl ?_)
    exact (min_le_right _ _).trans (hab.trans (le_max_right _ _))
  all_goals simp

end Segment

structure IntervalMap (K V : Type*) [LinearOrder K] where
  segs : List (Segment K V)
  apart : segs.Pairwise Segment.Apart

namespace IntervalMap

variable (m : IntervalMap K V) (a b x : K) (v : V)

def empty : IntervalMap K V := ⟨[], .nil⟩

def get : Option V := (m.segs.find? fun s => s.Contains x).map Segment.val

def erase : IntervalMap K V :=
  if hab : a < b then
    ⟨m.segs.flatMap (Segment.cut a b), by
      rw [List.pairwise_flatMap]
      refine ⟨fun s _ => Segment.pairwise_cut hab.le s, m.apart.imp fun h u hu v hv => ?_⟩
      obtain ⟨-, hu⟩ := Segment.mem_cut hu
      obtain ⟨-, hv⟩ := Segment.mem_cut hv
      exact h.of_bounds ⟨hu.1, hu.2.1⟩ ⟨hv.1, hv.2.1⟩⟩
  else m

lemma erase_apart {s : Segment K V} (hab : a < b) (hs : s ∈ (m.erase a b).segs) :
    s.hi ≤ a ∨ b ≤ s.lo := by
  rw [erase, dif_pos hab] at hs
  obtain ⟨u, -, hu⟩ := List.mem_flatMap.mp hs
  exact (Segment.mem_cut hu).2.2.2

def set : IntervalMap K V :=
  if hab : a < b then
    ⟨⟨a, b, v⟩ :: (m.erase a b).segs, by
      refine List.pairwise_cons.mpr ⟨fun s hs => ?_, (m.erase a b).apart⟩
      exact (m.erase_apart a b hab hs).symm⟩
  else m

def eraseIf (p : V → Bool) : IntervalMap K V :=
  ⟨m.segs.filter fun s => !p s.val, m.apart.filter _⟩

def intersects : Bool := decide (a < b) && m.segs.any fun s => decide (max s.lo a < min s.hi b)

variable {m a b x v}

lemma get_eq_some : m.get x = some v ↔ ∃ s ∈ m.segs, s.Contains x ∧ s.val = v := by
  obtain ⟨segs, hap⟩ := m
  simp only [get]
  induction segs with
  | nil => simp
  | cons s segs ih =>
    obtain ⟨hs, hap⟩ := List.pairwise_cons.mp hap
    by_cases hx : s.Contains x
    · rw [List.find?_cons_of_pos (by simpa using hx)]
      constructor
      · intro hv
        exact ⟨s, List.mem_cons_self, hx, Option.some.inj hv⟩
      · rintro ⟨t, ht, htx, rfl⟩
        rcases List.mem_cons.mp ht with rfl | ht
        · rfl
        -- two segments that are apart do not share a key
        · rcases hs t ht with h | h
          · exact absurd (hx.2.trans_le h) (not_lt.mpr htx.1)
          · exact absurd (htx.2.trans_le h) (not_lt.mpr hx.1)
    · rw [List.find?_cons_of_neg (by simpa using hx), ih hap]
      simp [hx]

@[simp] lemma get_empty : (empty : IntervalMap K V).get x = none := rfl

@[simp] lemma get_erase : (m.erase a b).get x = if a ≤ x ∧ x < b then none else m.get x := by
  by_cases hab : a < b
  · refine Option.ext fun v => ?_
    rw [get_eq_some]
    split_ifs with hx
    · simp only [iff_false]
      rintro ⟨s, hs, hsx, -⟩
      rcases m.erase_apart a b hab hs with h | h
      · exact absurd (hsx.2.trans_le h) (not_lt.mpr hx.1)
      · exact absurd (hx.2.trans_le h) (not_lt.mpr hsx.1)
    · rw [get_eq_some, erase, dif_pos hab]
      constructor
      · rintro ⟨t, ht, htx, rfl⟩
        obtain ⟨s, hs, hts⟩ := List.mem_flatMap.mp ht
        obtain ⟨hv, hlo, hhi, -⟩ := Segment.mem_cut hts
        exact ⟨s, hs, ⟨hlo.trans htx.1, htx.2.trans_le hhi⟩, hv.symm⟩
      · rintro ⟨s, hs, hsx, rfl⟩
        obtain ⟨t, ht, htx⟩ := Segment.exists_cut hsx hx
        exact ⟨t, List.mem_flatMap.mpr ⟨s, hs, ht⟩, htx, (Segment.mem_cut ht).1⟩
  · rw [erase, dif_neg hab, if_neg fun h => hab (h.1.trans_lt h.2)]

@[simp] lemma get_set : (m.set a b v).get x = if a ≤ x ∧ x < b then some v else m.get x := by
  by_cases hab : a < b
  · have hcons : (m.set a b v).get x = if a ≤ x ∧ x < b then some v else (m.erase a b).get x := by
      have hiff : (⟨a, b, v⟩ : Segment K V).Contains x ↔ a ≤ x ∧ x < b := Iff.rfl
      simp only [set, dif_pos hab, get, List.find?_cons, hiff]
      split_ifs with hx
      · simp [hx]
      · simp [hx]
    rw [hcons, get_erase]
    split_ifs <;> rfl
  · rw [set, dif_neg hab, if_neg fun h => hab (h.1.trans_lt h.2)]

lemma get_eraseIf {p : V → Bool} : (m.eraseIf p).get x = (m.get x).filter fun v => !p v := by
  refine Option.ext fun v => ?_
  rw [get_eq_some, Option.filter_eq_some_iff, get_eq_some]
  simp only [eraseIf, List.mem_filter]
  constructor
  · rintro ⟨s, ⟨hs, hp⟩, hx, rfl⟩
    exact ⟨⟨s, hs, hx, rfl⟩, hp⟩
  · rintro ⟨⟨s, hs, hx, rfl⟩, hp⟩
    exact ⟨s, ⟨hs, hp⟩, hx, rfl⟩

lemma exists_val_of_mem_erase {s : Segment K V} (hs : s ∈ (m.erase a b).segs) :
    ∃ t ∈ m.segs, t.val = s.val := by
  rw [erase] at hs
  split_ifs at hs
  · obtain ⟨t, ht, hst⟩ := List.mem_flatMap.mp hs
    exact ⟨t, ht, (Segment.mem_cut hst).1.symm⟩
  · exact ⟨s, hs, rfl⟩

lemma exists_val_of_mem_set {s : Segment K V} (hs : s ∈ (m.set a b v).segs) :
    s.val = v ∨ ∃ t ∈ m.segs, t.val = s.val := by
  rw [set] at hs
  split_ifs at hs
  · rcases List.mem_cons.mp hs with rfl | hs
    · exact Or.inl rfl
    · exact Or.inr (exists_val_of_mem_erase hs)
  · exact Or.inr ⟨s, hs, rfl⟩

lemma intersects_iff : m.intersects a b = true ↔ ∃ x, (a ≤ x ∧ x < b) ∧ (m.get x).isSome := by
  simp only [intersects, Bool.and_eq_true, decide_eq_true_eq, List.any_eq_true]
  constructor
  · rintro ⟨-, s, hs, hlt⟩
    refine ⟨max s.lo a, ⟨le_max_right _ _, hlt.trans_le (min_le_right _ _)⟩, ?_⟩
    rw [Option.isSome_iff_exists]
    exact ⟨s.val, get_eq_some.mpr
      ⟨s, hs, ⟨le_max_left _ _, hlt.trans_le (min_le_left _ _)⟩, rfl⟩⟩
  · rintro ⟨x, ⟨ha, hb⟩, hx⟩
    obtain ⟨v, hv⟩ := Option.isSome_iff_exists.mp hx
    obtain ⟨s, hs, hsx, -⟩ := get_eq_some.mp hv
    exact ⟨ha.trans_lt hb, s, hs, (max_le hsx.1 ha).trans_lt (lt_min hsx.2 hb)⟩

end IntervalMap

end CraftClient
