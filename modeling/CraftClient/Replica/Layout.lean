import Mathlib.Data.Bool.Count
import Mathlib.Data.List.Destutter
import CraftClient.Replica.Journal

namespace CraftClient.Replica

def Tiles : ℕ → List IoExtent → ℕ → Prop
  | a, [], b => a = b
  | a, e :: es, b => e.addr.toNat = a ∧ 0 < e.len.toNat ∧ Tiles (a + e.len.toNat) es b

lemma tiles_append {a b : ℕ} {es fs : List IoExtent} :
    Tiles a (es ++ fs) b ↔ ∃ c, Tiles a es c ∧ Tiles c fs b := by
  induction es generalizing a with
  | nil => exact ⟨fun h => ⟨a, rfl, h⟩, fun ⟨c, hc, h⟩ => hc ▸ h⟩
  | cons e es ih =>
    simp only [List.cons_append, Tiles, ih]
    constructor
    · rintro ⟨ha, hl, c, h₁, h₂⟩
      exact ⟨c, ⟨ha, hl, h₁⟩, h₂⟩
    · rintro ⟨c, ⟨ha, hl, h₁⟩, h₂⟩
      exact ⟨ha, hl, c, h₁, h₂⟩

lemma tiles_le {a b : ℕ} {es : List IoExtent} (h : Tiles a es b) : a ≤ b := by
  induction es generalizing a with
  | nil => exact h.le
  | cons e es ih => exact (Nat.le_add_right _ _).trans (ih h.2.2)

lemma tiles_unique {a b c : ℕ} {es : List IoExtent} (h : Tiles a es b) (h' : Tiles a es c) : b = c := by
  induction es generalizing a with
  | nil => exact h.symm.trans h'
  | cons e es ih => exact ih h.2.2 h'.2.2

lemma tiles_mem {a b : ℕ} {es : List IoExtent} {e : IoExtent} (h : Tiles a es b) (he : e ∈ es) :
    a ≤ e.addr.toNat ∧ e.addr.toNat + e.len.toNat ≤ b := by
  induction es generalizing a with
  | nil => cases he
  | cons f es ih =>
    obtain ⟨ha, -, hrest⟩ := h
    rcases List.mem_cons.mp he with rfl | he
    · have hle := tiles_le hrest
      omega
    · have hin := ih hrest he
      omega

lemma tiles_cover {a b i : ℕ} {es : List IoExtent} (h : Tiles a es b) (ha : a ≤ i) (hb : i < b) :
    ∃ e ∈ es, e.addr.toNat ≤ i ∧ i < e.addr.toNat + e.len.toNat := by
  induction es generalizing a with
  | nil =>
    rw [Tiles] at h
    omega
  | cons f es ih =>
    obtain ⟨hf, -, hrest⟩ := h
    rcases lt_or_ge i (a + f.len.toNat) with hlt | hge
    · exact ⟨f, List.mem_cons_self, by omega⟩
    · obtain ⟨e, he, hin⟩ := ih hrest hge
      exact ⟨e, List.mem_cons_of_mem _ he, hin⟩

/-- A layout of pages of `P` bytes from `a` on: the extents partition the range, neighbours differ, and taken page by
page they say which pages are holes. -/
structure Layout (P a : ℕ) (holes : List Bool) (layout : List IoExtent) : Prop where
  tiles : Tiles a layout (a + holes.length * P)
  alternate : (layout.map IoExtent.hole).IsChain (· ≠ ·)
  pages : ∀ e ∈ layout, P ∣ e.len.toNat
  holes : layout.flatMap (fun e => List.replicate (e.len.toNat / P) e.hole) = holes

lemma layout_nil (P a : ℕ) : Layout P a [] [] :=
  ⟨by simp [Tiles], .nil, nofun, rfl⟩

variable {P a : ℕ} {holes : List Bool} {layout : List IoExtent} {addr len : UInt64} {hole : Bool}

lemma Layout.push (h : Layout P a holes layout) (hP : 0 < P) (hlen : len.toNat = P)
    (haddr : addr.toNat = a + holes.length * P) (hsize : (holes.length + 1) * P < 2 ^ 64) :
    Layout P a (holes ++ [hole]) (MemReplica.pushExtent layout addr len hole) := by
  have hend : a + (holes ++ [hole]).length * P = a + holes.length * P + P := by
    rw [List.length_append, List.length_singleton, Nat.add_mul, Nat.one_mul, Nat.add_assoc]
  have hlt := addr.toNat_lt
  -- a new extent behind the others
  have hnew : (∀ e ∈ layout.getLast?, e.hole ≠ hole) →
      Layout P a (holes ++ [hole]) (layout ++ [⟨addr, len, hole⟩]) := by
    intro hne
    refine ⟨?_, ?_, ?_, ?_⟩
    · rw [hend]
      exact tiles_append.mpr ⟨_, h.tiles, haddr, by rw [hlen]; exact hP, by rw [Tiles, hlen]⟩
    · rw [List.map_append, List.isChain_append]
      refine ⟨h.alternate, .singleton _, ?_⟩
      simpa using hne
    · intro e he
      rcases List.mem_append.mp he with he | he
      · exact h.pages e he
      · rw [List.mem_singleton.mp he, hlen]
    · rw [List.flatMap_append, h.holes, List.flatMap_singleton, hlen, Nat.div_self hP]
      rfl
  rw [MemReplica.pushExtent]
  rcases List.eq_nil_or_concat layout with rfl | ⟨es, e, rfl⟩
  · exact hnew nofun
  · simp only [List.concat_eq_append, List.getLast?_concat, List.dropLast_concat] at hnew h ⊢
    obtain ⟨c, htiles, he, -, hc⟩ := tiles_append.mp h.tiles
    obtain ⟨k, hk⟩ := h.pages e (by simp)
    have hsum : (e.addr + e.len).toNat = addr.toNat := by
      rw [UInt64.toNat_add, he, hc, ← haddr, Nat.mod_eq_of_lt hlt]
    have hadj : e.addr + e.len = addr := UInt64.toNat_inj.mp hsum
    split_ifs with hsame
    · obtain ⟨rfl, -⟩ := hsame
      -- the last extent grows by a page, and stays within the range
      have hle := tiles_le htiles
      have hgrow : (e.len + len).toNat = e.len.toNat + P := by
        rw [UInt64.toNat_add, hlen, Nat.mod_eq_of_lt]
        rw [Nat.add_mul, Nat.one_mul] at hsize
        rw [Tiles] at hc
        omega
      refine ⟨?_, ?_, ?_, ?_⟩
      · rw [hend]
        refine tiles_append.mpr ⟨c, htiles, he, ?_, ?_⟩
        · rw [hgrow]
          omega
        · rw [Tiles] at hc ⊢
          rw [hgrow, ← Nat.add_assoc, hc]
      · simpa using h.alternate
      · intro f hf
        rcases List.mem_append.mp hf with hf | hf
        · exact h.pages f (List.mem_append_left _ hf)
        · rw [List.mem_singleton.mp hf, hgrow, hk]
          exact ⟨k + 1, by rw [Nat.mul_add, Nat.mul_one]⟩
      · rw [← h.holes, List.flatMap_append, List.flatMap_append, List.flatMap_singleton, List.flatMap_singleton,
          hgrow, Nat.add_div_right _ hP, List.replicate_succ', List.append_assoc]
    · apply hnew
      rintro f ⟨⟩ hf
      exact hsame ⟨hf, hadj⟩

namespace MemReplica

variable {r : MemReplica} {H : ℤ}

lemma toNat_blockSize (r : MemReplica) : r.blockSize.toNat = r.pageSize.toNat := UInt32.toNat_toUInt64 _

lemma aligned (h : r.misaligned addr len = false) : 0 < r.pageSize.toNat ∧ r.pageSize.toNat ∣ addr.toNat ∧
    r.pageSize.toNat ∣ len.toNat ∧ 0 < len.toNat := by
  simp only [misaligned, Bool.or_eq_false_iff, bne_eq_false_iff_eq, beq_eq_false_iff_ne] at h
  obtain ⟨⟨ha, hl⟩, hne⟩ := h
  have ha' := congrArg UInt64.toNat ha
  have hl' := congrArg UInt64.toNat hl
  rw [UInt64.toNat_mod, toNat_blockSize] at ha' hl'
  have hpos : 0 < len.toNat := Nat.pos_of_ne_zero fun h0 => hne (UInt64.toNat_inj.mp h0)
  refine ⟨Nat.pos_of_ne_zero fun h0 => ?_, Nat.dvd_of_mod_eq_zero ha', Nat.dvd_of_mod_eq_zero hl', hpos⟩
  rw [h0, Nat.mod_zero] at hl'
  exact hpos.ne' hl'

lemma toNat_pageAddr {i : ℕ} (hP : 0 < r.pageSize.toNat) (ha : r.pageSize.toNat ∣ addr.toNat)
    (hi : addr.toNat + i * r.pageSize.toNat < 2 ^ 64) :
    ((addr / r.blockSize + .ofNat i) * r.blockSize).toNat = addr.toNat + i * r.pageSize.toNat := by
  obtain ⟨k, hk⟩ := ha
  have hle : k + i ≤ (k + i) * r.pageSize.toNat := Nat.le_mul_of_pos_right _ hP
  have hsum : (k + i) * r.pageSize.toNat = addr.toNat + i * r.pageSize.toNat := by rw [hk, Nat.add_mul, Nat.mul_comm k]
  have hi' : i < 2 ^ 64 := by omega
  have hdiv : (addr / r.blockSize).toNat = k := by
    rw [UInt64.toNat_div, toNat_blockSize, hk, Nat.mul_div_cancel_left _ hP]
  rw [UInt64.toNat_mul, UInt64.toNat_add, hdiv, toNat_blockSize, UInt64.toNat_ofNat_of_lt' hi',
    Nat.mod_eq_of_lt (show k + i < 2 ^ 64 by omega), hsum, Nat.mod_eq_of_lt hi]

def blocksOf (r : MemReplica) (len : UInt64) : ℕ := (len / r.blockSize).toUInt32.toNat

lemma blocksOf_eq (r : MemReplica) (len : UInt64) :
    r.blocksOf len = len.toNat / r.pageSize.toNat % 2 ^ 32 := by
  rw [blocksOf, UInt64.toNat_toUInt32, UInt64.toNat_div, toNat_blockSize]

lemma blocksOf_mul_le (r : MemReplica) (len : UInt64) : r.blocksOf len * r.pageSize.toNat ≤ len.toNat := by
  rw [blocksOf_eq]
  exact (Nat.mul_le_mul_right _ (Nat.mod_le _ _)).trans (Nat.div_mul_le_self _ _)

lemma readRange_blocks (r : MemReplica) (H : ℤ) (addr len : UInt64) : (r.readRange H addr len).1 =
    (List.range (r.blocksOf len)).map fun i => r.readBlock H (addr / r.blockSize + .ofNat i) := by
  simp only [readRange, blocksOf, List.map_map]
  rfl

lemma layout_readRange (h : r.misaligned addr len = false) (hend : addr.toNat + len.toNat ≤ 2 ^ 64) :
    Layout r.pageSize.toNat addr.toNat ((r.readRange H addr len).1.map Block.hole) (r.readRange H addr len).2 := by
  obtain ⟨hP, ha, -, -⟩ := aligned h
  have hlen := len.toNat_lt
  have hn := blocksOf_mul_le r len
  rw [readRange_blocks]
  simp only [readRange]
  rw [← blocksOf]
  generalize r.blocksOf len = n at hn
  induction n with
  | zero => exact layout_nil _ _
  | succ n ih =>
    rw [Nat.add_mul, Nat.one_mul] at hn
    rw [List.range_succ, List.map_append, List.map_append, List.map_append, List.foldl_append]
    apply (ih (by omega)).push hP (toNat_blockSize r)
    · simp only [List.length_map, List.length_range]
      exact toNat_pageAddr hP ha (by omega)
    · simp only [List.length_map, List.length_range]
      rw [Nat.add_mul, Nat.one_mul]
      omega

end MemReplica

section Runs

variable {α : Type*} [DecidableEq α]

lemma destutter_concat (l : List α) (b : α) : (l ++ [b]).destutter (· ≠ ·) =
    if l.getLast? = some b then l.destutter (· ≠ ·) else l.destutter (· ≠ ·) ++ [b] := by
  cases l with
  | nil => rfl
  | cons a l =>
    rw [List.cons_append, List.destutter_cons', List.destutter_cons']
    induction l generalizing a with
    | nil => by_cases h : a = b <;> simp [h]
    | cons c l ih =>
      rw [List.cons_append, List.getLast?_cons_cons]
      by_cases h : a ≠ c
      · rw [List.destutter'_cons_pos _ h, List.destutter'_cons_pos _ h, ih c]
        split_ifs <;> rfl
      · obtain rfl := not_not.mp h
        rw [List.destutter'_cons_neg _ h, List.destutter'_cons_neg _ h, ih a]

lemma length_destutter_le (l : List Bool) : (l.destutter (· ≠ ·)).length ≤ l.length ∧
    (l.destutter (· ≠ ·)).length ≤ 2 * l.count true + 1 := by
  have hsub := List.destutter_sublist (· ≠ ·) l
  have hcount := hsub.count_le true
  have hchain := (List.isChain_destutter (· ≠ ·) l).count_false_le_count_true_add_one
  have htotal := List.count_false_add_count_true (l.destutter (· ≠ ·))
  exact ⟨hsub.length_le, by omega⟩

end Runs

def dataLen (layout : List IoExtent) : ℕ := ((layout.filter fun e => !e.hole).map fun e => e.len.toNat).sum

lemma dataLen_concat (es : List IoExtent) (e : IoExtent) :
    dataLen (es ++ [e]) = dataLen es + if e.hole then 0 else e.len.toNat := by
  rw [dataLen, List.filter_append, List.map_append, List.sum_append]
  cases he : e.hole <;> simp [dataLen, he]

structure Coalesced (P : ℕ) (next : UInt64) (holes : List Bool) (layout : List IoExtent) : Prop where
  runs : layout.map IoExtent.hole = holes.destutter (· ≠ ·)
  last : layout.getLast?.map IoExtent.hole = holes.getLast?
  adjacent : ∀ e ∈ layout.getLast?, e.addr + e.len = next
  data : dataLen layout ≤ holes.count false * P

lemma coalesced_nil (P : ℕ) (next : UInt64) : Coalesced P next [] [] := ⟨rfl, rfl, nofun, Nat.zero_le _⟩

lemma Coalesced.push (h : Coalesced P addr holes layout) (hlen : len.toNat = P) :
    Coalesced P (addr + len) (holes ++ [hole]) (MemReplica.pushExtent layout addr len hole) := by
  have hcount : (holes ++ [hole]).count false * P = holes.count false * P + if hole then 0 else P := by
    rw [List.count_append, Nat.add_mul]
    cases hole <;> simp
  rw [MemReplica.pushExtent]
  rcases List.eq_nil_or_concat layout with rfl | ⟨es, e, rfl⟩
  · have hnil : holes = [] := by simpa using h.last.symm
    subst hnil
    refine ⟨rfl, rfl, ?_, ?_⟩
    · rintro _ ⟨⟩
      rfl
    · rw [hcount]
      cases hole <;> simp [dataLen, hlen]
  · simp only [List.concat_eq_append, List.getLast?_concat, List.dropLast_concat] at h ⊢
    have hadj := h.adjacent e (by simp)
    have hlast : holes.getLast? = some e.hole := by
      rw [← h.last, List.getLast?_concat, Option.map_some]
    have hdata := h.data
    split_ifs with hsame
    · obtain ⟨rfl, -⟩ := hsame
      refine ⟨?_, ?_, ?_, ?_⟩
      · rw [destutter_concat, if_pos hlast, ← h.runs, List.map_append, List.map_append]
        rfl
      · simp
      · rw [List.getLast?_concat]
        rintro _ ⟨⟩
        simp only
        rw [← UInt64.add_assoc, hadj]
      · have hgrow : (e.len + len).toNat ≤ e.len.toNat + P := by
          rw [UInt64.toNat_add, hlen]
          exact Nat.mod_le _ _
        simp only [dataLen_concat, hcount] at hdata ⊢
        split_ifs at hdata ⊢ <;> omega
    · have hne : ¬ holes.getLast? = some hole := by
        rw [hlast]
        exact fun he => hsame ⟨Option.some.inj he, hadj⟩
      refine ⟨?_, ?_, ?_, ?_⟩
      · rw [destutter_concat, if_neg hne, ← h.runs, List.map_append]
        rfl
      · simp
      · rw [List.getLast?_concat]
        rintro _ ⟨⟩
        rfl
      · rw [dataLen_concat, hcount, hlen]
        exact Nat.add_le_add_right hdata _

lemma MemReplica.coalesced_readRange (r : MemReplica) (H : ℤ) (addr len : UInt64) :
    ∃ next, Coalesced r.pageSize.toNat next ((r.readRange H addr len).1.map Block.hole) (r.readRange H addr len).2 := by
  rw [readRange_blocks]
  simp only [readRange]
  rw [← blocksOf]
  generalize r.blocksOf len = n
  refine ⟨(addr / r.blockSize + .ofNat n) * r.blockSize, ?_⟩
  induction n with
  | zero => exact coalesced_nil _ _
  | succ n ih =>
    have hnext : (addr / r.blockSize + .ofNat (n + 1)) * r.blockSize =
        (addr / r.blockSize + .ofNat n) * r.blockSize + r.blockSize := by
      rw [UInt64.ofNat_add, ← UInt64.add_assoc, UInt64.add_mul, UInt64.ofNat_one, UInt64.one_mul]
    rw [List.range_succ, List.map_append, List.map_append, List.map_append, List.foldl_append, hnext]
    exact ih.push (toNat_blockSize r)

end CraftClient.Replica
