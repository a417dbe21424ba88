import CraftClient.Tracker.Plan

namespace CraftClient.Tracker

def DlsnSlot.Covers (s : DlsnSlot) (x : ℕ) : Prop :=
  s.addr.toNat ≤ x ∧ x < s.addr.toNat + s.len.toNat

instance (s : DlsnSlot) (x : ℕ) : Decidable (s.Covers x) := inferInstanceAs (Decidable (_ ∧ _))

def Partition (lbaSize : ℕ) : List ReadSegment → ℕ → ℕ → Prop
  | [], a, e => a = e
  | seg :: segs, a, e =>
    seg.addr.toNat = a ∧ 0 < seg.len.toNat ∧ lbaSize ∣ seg.addr.toNat ∧ lbaSize ∣ seg.len.toNat ∧
      Partition lbaSize segs (a + seg.len.toNat) e

lemma Partition.concat {lbaSize a e : ℕ} {segs : List ReadSegment} {seg : ReadSegment}
    (h : Partition lbaSize segs a e) (ha : seg.addr.toNat = e) (hl : 0 < seg.len.toNat)
    (hda : lbaSize ∣ seg.addr.toNat) (hdl : lbaSize ∣ seg.len.toNat) :
    Partition lbaSize (segs ++ [seg]) a (e + seg.len.toNat) := by
  induction segs generalizing a with
  | nil =>
    obtain rfl : a = e := h
    exact ⟨ha, hl, hda, hdl, rfl⟩
  | cons s segs ih =>
    obtain ⟨h₁, h₂, h₃, h₄, h₅⟩ := h
    exact ⟨h₁, h₂, h₃, h₄, ih h₅⟩

lemma Partition.le {lbaSize a e : ℕ} {segs : List ReadSegment} (h : Partition lbaSize segs a e) :
    a ≤ e := by
  induction segs generalizing a with
  | nil => exact le_of_eq h
  | cons s segs ih =>
    have hh := ih h.2.2.2.2
    omega

lemma Partition.mem_bounds {lbaSize a e : ℕ} {segs : List ReadSegment} {seg : ReadSegment}
    (h : Partition lbaSize segs a e) (hm : seg ∈ segs) :
    a ≤ seg.addr.toNat ∧ 0 < seg.len.toNat ∧ seg.addr.toNat + seg.len.toNat ≤ e := by
  induction segs generalizing a with
  | nil => cases hm
  | cons s segs ih =>
    obtain ⟨h₁, h₂, -, -, h₅⟩ := h
    rcases List.mem_cons.mp hm with rfl | hm
    · have hh := h₅.le
      omega
    · have hh := ih h₅ hm
      omega

lemma Partition.mem_dvd {lbaSize a e : ℕ} {segs : List ReadSegment} {seg : ReadSegment}
    (h : Partition lbaSize segs a e) (hm : seg ∈ segs) :
    lbaSize ∣ seg.addr.toNat ∧ lbaSize ∣ seg.len.toNat := by
  induction segs generalizing a with
  | nil => cases hm
  | cons s segs ih =>
    obtain ⟨-, -, h₃, h₄, h₅⟩ := h
    rcases List.mem_cons.mp hm with rfl | hm
    · exact ⟨h₃, h₄⟩
    · exact ih h₅ hm

structure RangeOk (lbaSize addr len : UInt64) : Prop where
  pos : 0 < len.toNat
  addr_dvd : lbaSize.toNat ∣ addr.toNat
  len_dvd : lbaSize.toNat ∣ len.toNat
  end_lt : addr.toNat + len.toNat < 2 ^ 64

instance (lbaSize addr len : UInt64) : Decidable (RangeOk lbaSize addr len) :=
  decidable_of_iff (0 < len.toNat ∧ lbaSize.toNat ∣ addr.toNat ∧ lbaSize.toNat ∣ len.toNat ∧
    addr.toNat + len.toNat < 2 ^ 64)
    ⟨fun ⟨h₁, h₂, h₃, h₄⟩ => ⟨h₁, h₂, h₃, h₄⟩, fun ⟨h₁, h₂, h₃, h₄⟩ => ⟨h₁, h₂, h₃, h₄⟩⟩

lemma RangeOk.lbaSize_pos {lbaSize addr len : UInt64} (h : RangeOk lbaSize addr len) :
    0 < lbaSize.toNat := by
  rcases Nat.eq_zero_or_pos lbaSize.toNat with h0 | hp
  · have hd := h.len_dvd
    rw [h0, Nat.zero_dvd] at hd
    exact absurd hd h.pos.ne'
  · exact hp

lemma RangeOk.toNat_end {lbaSize addr len : UInt64} (h : RangeOk lbaSize addr len) :
    (addr + len).toNat = addr.toNat + len.toNat := by
  rw [UInt64.toNat_add, Nat.mod_eq_of_lt h.end_lt]

lemma overlaps_iff {lbaSize addr len : UInt64} {s : DlsnSlot} (h : RangeOk lbaSize addr len)
    (hs : RangeOk lbaSize s.addr s.len) :
    overlaps addr len s.addr s.len = true ↔
      addr.toNat < s.addr.toNat + s.len.toNat ∧ s.addr.toNat < addr.toNat + len.toNat := by
  simp only [overlaps, Bool.and_eq_true, decide_eq_true_eq, UInt64.lt_iff_toNat_lt, h.toNat_end,
    hs.toNat_end]

section Blocks

variable {lbaSize addr len : UInt64} {s : DlsnSlot}

def InBlock (lbaSize addr : UInt64) (k x : ℕ) : Prop :=
  addr.toNat + k * lbaSize.toNat ≤ x ∧ x < addr.toNat + (k + 1) * lbaSize.toNat

lemma toNat_max (a b : UInt64) : (max a b).toNat = max a.toNat b.toNat := by
  change (if a ≤ b then b else a).toNat = _
  split_ifs with h
  · rw [max_eq_right (UInt64.le_iff_toNat_le.mp h)]
  · rw [max_eq_left (Nat.le_of_not_le fun hn => h (UInt64.le_iff_toNat_le.mpr hn))]

lemma toNat_min (a b : UInt64) : (min a b).toNat = min a.toNat b.toNat := by
  change (if a ≤ b then a else b).toNat = _
  split_ifs with h
  · rw [min_eq_left (UInt64.le_iff_toNat_le.mp h)]
  · rw [min_eq_right (Nat.le_of_not_le fun hn => h (UInt64.le_iff_toNat_le.mpr hn))]

lemma mul_sub_one_div {l q : ℕ} (hl : 0 < l) : (l * q - 1) / l = q - 1 := by
  rcases q with _ | q
  · simp
  · rw [Nat.div_eq_of_lt_le] <;> simp only [Nat.mul_add, Nat.add_mul, Nat.add_sub_cancel]
    · rw [Nat.mul_comm q l]
      omega
    · rw [Nat.mul_comm q l]
      omega

lemma toNat_blockSpan {nblk a n b m : ℕ} (h : RangeOk lbaSize addr len)
    (hs : RangeOk lbaSize s.addr s.len) (ho : overlaps addr len s.addr s.len = true)
    (ha : addr.toNat = lbaSize.toNat * a) (hn : len.toNat = lbaSize.toNat * n)
    (hb : s.addr.toNat = lbaSize.toNat * b) (hm : s.len.toNat = lbaSize.toNat * m) :
    blockSpan addr len lbaSize nblk s =
      (max a b - a, min (nblk - 1) (min (a + n) (b + m) - a - 1)) := by
  have hl := h.lbaSize_pos
  obtain ⟨h₁, h₂⟩ := (overlaps_iff h hs).mp ho
  have hlo : addr ≤ max addr s.addr := by
    rw [UInt64.le_iff_toNat_le, toNat_max]
    exact le_max_left _ _
  have hhi : (min (addr + len) (s.addr + s.len)).toNat = lbaSize.toNat * min (a + n) (b + m) := by
    rw [toNat_min, h.toNat_end, hs.toNat_end, ha, hn, hb, hm, ← Nat.mul_add, ← Nat.mul_add,
      Nat.mul_min_mul_left]
  have hlt : a < min (a + n) (b + m) := by
    have hp := h.pos
    rw [hn] at hp
    rw [ha, hb, hm, ← Nat.mul_add] at h₁
    have hn0 := Nat.pos_of_mul_pos_left hp
    have hab := Nat.lt_of_mul_lt_mul_left h₁
    omega
  have hpos : lbaSize.toNat * a < lbaSize.toNat * min (a + n) (b + m) :=
    (Nat.mul_lt_mul_left hl).mpr hlt
  have hone : (1 : UInt64) ≤ min (addr + len) (s.addr + s.len) := by
    rw [UInt64.le_iff_toNat_le, hhi]
    exact Nat.one_le_iff_ne_zero.mpr (by omega)
  have hle : addr ≤ min (addr + len) (s.addr + s.len) - 1 := by
    rw [UInt64.le_iff_toNat_le, UInt64.toNat_sub_of_le _ _ hone, hhi, ha]
    simp only [UInt64.toNat_one]
    omega
  simp only [blockSpan, UInt64.toNat_div, UInt64.toNat_sub_of_le _ _ hlo,
    UInt64.toNat_sub_of_le _ _ hle, UInt64.toNat_sub_of_le _ _ hone, hhi, toNat_max, ha, hb,
    UInt64.toNat_one, Nat.mul_max_mul_left, ← Nat.mul_sub, Nat.mul_div_cancel_left _ hl]
  rw [Nat.sub_right_comm, ← Nat.mul_sub, mul_sub_one_div hl]

lemma inBlock_iff {l a k x : ℕ} (ha : addr.toNat = lbaSize.toNat * a) (hl : lbaSize.toNat = l) :
    InBlock lbaSize addr k x ↔ l * (a + k) ≤ x ∧ x < l * (a + k + 1) := by
  have h₁ : l * (a + k) = l * a + k * l := by ring
  have h₂ : l * (a + k + 1) = l * a + (k + 1) * l := by ring
  rw [InBlock, ha, hl, h₁, h₂]

lemma covers_iff_of_inBlock {a b m k x : ℕ} (ha : addr.toNat = lbaSize.toNat * a)
    (hb : s.addr.toNat = lbaSize.toNat * b) (hm : s.len.toNat = lbaSize.toNat * m)
    (hx : InBlock lbaSize addr k x) : s.Covers x ↔ b ≤ a + k ∧ a + k < b + m := by
  obtain ⟨h₁, h₂⟩ := (inBlock_iff ha rfl).mp hx
  rw [DlsnSlot.Covers, hb, hm, ← Nat.mul_add]
  constructor
  · rintro ⟨h₃, h₄⟩
    exact ⟨Nat.lt_succ_iff.mp (Nat.lt_of_mul_lt_mul_left (h₃.trans_lt h₂)),
      Nat.lt_of_mul_lt_mul_left (h₁.trans_lt h₄)⟩
  · rintro ⟨h₃, h₄⟩
    exact ⟨(Nat.mul_le_mul_left _ h₃).trans h₁, h₂.trans_le (Nat.mul_le_mul_left _ h₄)⟩

lemma overlaps_of_covers {n k x : ℕ} (h : RangeOk lbaSize addr len)
    (hs : RangeOk lbaSize s.addr s.len) (hn : len.toNat = lbaSize.toNat * n) (hk : k < n)
    (hx : InBlock lbaSize addr k x) (hc : s.Covers x) : overlaps addr len s.addr s.len = true := by
  obtain ⟨h₁, h₂⟩ := hx
  obtain ⟨h₃, h₄⟩ := hc
  have hkn : (k + 1) * lbaSize.toNat ≤ lbaSize.toNat * n := by
    rw [Nat.mul_comm]
    exact Nat.mul_le_mul_left _ hk
  rw [overlaps_iff h hs, hn]
  omega

lemma mem_blockSpan {n k x : ℕ} (h : RangeOk lbaSize addr len)
    (hs : RangeOk lbaSize s.addr s.len) (ho : overlaps addr len s.addr s.len = true)
    (hn : len.toNat = lbaSize.toNat * n) (hk : k < n) (hx : InBlock lbaSize addr k x) :
    (blockSpan addr len lbaSize n s).1 ≤ k ∧ k ≤ (blockSpan addr len lbaSize n s).2 ↔
      s.Covers x := by
  obtain ⟨a, ha⟩ := h.addr_dvd
  obtain ⟨b, hb⟩ := hs.addr_dvd
  obtain ⟨m, hm⟩ := hs.len_dvd
  obtain ⟨h₁, h₂⟩ := (overlaps_iff h hs).mp ho
  rw [ha, hb, hm, ← Nat.mul_add] at h₁
  rw [ha, hb, hn, ← Nat.mul_add] at h₂
  have h₃ := Nat.lt_of_mul_lt_mul_left h₁
  have h₄ := Nat.lt_of_mul_lt_mul_left h₂
  rw [toNat_blockSpan h hs ho ha hn hb hm, covers_iff_of_inBlock ha hb hm hx]
  clear ha hb hm hn h₁ h₂
  omega

lemma exists_inBlock {n x : ℕ} (hl : 0 < lbaSize.toNat) (hn : len.toNat = lbaSize.toNat * n)
    (h₁ : addr.toNat ≤ x) (h₂ : x < addr.toNat + len.toNat) :
    ∃ k < n, InBlock lbaSize addr k x := by
  have hdiv := Nat.div_add_mod (x - addr.toNat) lbaSize.toNat
  have hmod := Nat.mod_lt (x - addr.toNat) hl
  refine ⟨(x - addr.toNat) / lbaSize.toNat, ?_, ?_, ?_⟩
  · exact Nat.div_lt_of_lt_mul (by omega)
  · rw [Nat.mul_comm]
    omega
  · rw [Nat.add_mul, Nat.mul_comm, Nat.one_mul]
    omega

end Blocks

section Segments

variable {lbaSize addr len : UInt64} {hor : ℕ → ℤ}

def Carries (lbaSize addr : UInt64) (hor : ℕ → ℤ) (seg : ReadSegment) : Prop :=
  ∀ k x, InBlock lbaSize addr k x → seg.addr.toNat ≤ x → x < seg.addr.toNat + seg.len.toNat →
    seg.H = hor k

lemma segment_spec {n i j : ℕ} (h : RangeOk lbaSize addr len) (hn : len.toNat = lbaSize.toNat * n)
    (hij : i < j) (hj : j ≤ n) (cur : ℤ) (hcur : ∀ k, i ≤ k → k < j → hor k = cur) :
    let seg : ReadSegment := ⟨addr + .ofNat i * lbaSize, .ofNat (j - i) * lbaSize, cur⟩
    seg.addr.toNat = addr.toNat + lbaSize.toNat * i ∧
      seg.len.toNat = lbaSize.toNat * (j - i) ∧ Carries lbaSize addr hor seg := by
  have hl := h.lbaSize_pos
  have he := h.end_lt
  have hnn : n ≤ lbaSize.toNat * n := Nat.le_mul_of_pos_left n hl
  have hin : lbaSize.toNat * i ≤ lbaSize.toNat * n := Nat.mul_le_mul_left _ (by omega)
  have hjn : lbaSize.toNat * (j - i) ≤ lbaSize.toNat * n := Nat.mul_le_mul_left _ (by omega)
  have hi : (UInt64.ofNat i * lbaSize).toNat = lbaSize.toNat * i := by
    rw [UInt64.toNat_mul, UInt64.toNat_ofNat_of_lt' (by simp only [UInt64.size]; omega), Nat.mul_comm,
      Nat.mod_eq_of_lt (by omega)]
  have hji : (UInt64.ofNat (j - i) * lbaSize).toNat = lbaSize.toNat * (j - i) := by
    rw [UInt64.toNat_mul, UInt64.toNat_ofNat_of_lt' (by simp only [UInt64.size]; omega), Nat.mul_comm,
      Nat.mod_eq_of_lt (by omega)]
  have ha : (addr + UInt64.ofNat i * lbaSize).toNat = addr.toNat + lbaSize.toNat * i := by
    rw [UInt64.toNat_add, hi, Nat.mod_eq_of_lt (by omega)]
  refine ⟨ha, hji, fun k x hx h₁ h₂ => ?_⟩
  obtain ⟨h₃, h₄⟩ := hx
  simp only [ha, hji] at h₁ h₂
  have hsum : lbaSize.toNat * i + lbaSize.toNat * (j - i) = lbaSize.toNat * j := by
    rw [← Nat.mul_add]
    congr 1
    omega
  have hik : lbaSize.toNat * i < lbaSize.toNat * (k + 1) := by
    rw [Nat.mul_comm _ (k + 1)]
    omega
  have hkj : lbaSize.toNat * k < lbaSize.toNat * j := by
    rw [Nat.mul_comm _ k]
    omega
  exact (hcur k (Nat.lt_succ_iff.mp (Nat.lt_of_mul_lt_mul_left hik))
    (Nat.lt_of_mul_lt_mul_left hkj)).symm

structure Pushed (lbaSize addr : UInt64) (hor : ℕ → ℤ) (segs : List ReadSegment) (i : ℕ) : Prop where
  partition : Partition lbaSize.toNat segs addr.toNat (addr.toNat + lbaSize.toNat * i)
  carries : ∀ seg ∈ segs, Carries lbaSize addr hor seg
  length_le : segs.length ≤ kMaxSegments

lemma Pushed.push {n i j : ℕ} {cur : ℤ} {segs : List ReadSegment} (hp : Pushed lbaSize addr hor segs i)
    (h : RangeOk lbaSize addr len) (hn : len.toNat = lbaSize.toNat * n) (hij : i < j) (hj : j ≤ n)
    (hcur : ∀ k, i ≤ k → k < j → hor k = cur) (hne : segs.length ≠ kMaxSegments) :
    Pushed lbaSize addr hor
      (segs ++ [⟨addr + .ofNat i * lbaSize, .ofNat (j - i) * lbaSize, cur⟩]) j := by
  obtain ⟨ha, hl, hseg⟩ := segment_spec h hn hij hj cur hcur
  have hsum : addr.toNat + lbaSize.toNat * j =
      addr.toNat + lbaSize.toNat * i + lbaSize.toNat * (j - i) := by
    rw [Nat.add_assoc, ← Nat.mul_add]
    congr 2
    omega
  refine ⟨?_, ?_, ?_⟩
  · rw [hsum, ← hl]
    apply hp.partition.concat ha
    · rw [hl]
      exact Nat.mul_pos h.lbaSize_pos (by omega)
    · rw [ha]
      exact Nat.dvd_add h.addr_dvd (Nat.dvd_mul_right _ _)
    · rw [hl]
      exact Nat.dvd_mul_right _ _
  · intro seg hmem
    rcases List.mem_append.mp hmem with hm | hm
    · exact hp.carries seg hm
    · rw [List.mem_singleton.mp hm]
      exact hseg
  · have hle := hp.length_le
    simp only [List.length_append, List.length_singleton]
    omega

lemma segLoop_spec {n : ℕ} (h : RangeOk lbaSize addr len) (hn : len.toNat = lbaSize.toNat * n)
    (hs : List ℤ) (b i : ℕ) (cur : ℤ) (segs out : List ReadSegment)
    (hout : segLoop addr lbaSize hs b i cur segs = some out)
    (hib : i < b) (hbn : b + hs.length = n) (hhs : ∀ j v, hs[j]? = some v → v = hor (b + j))
    (hcur : ∀ k, i ≤ k → k < b → hor k = cur) (hp : Pushed lbaSize addr hor segs i) :
    Pushed lbaSize addr hor out n := by
  induction hs generalizing b i cur segs with
  | nil =>
    simp only [segLoop] at hout
    split_ifs at hout with hfull
    cases hout
    obtain rfl : b = n := by simpa using hbn
    exact hp.push h hn hib le_rfl hcur hfull
  | cons v hs ih =>
    have hv : v = hor b := hhs 0 v rfl
    have htail : ∀ j w, hs[j]? = some w → w = hor (b + 1 + j) := by
      intro j w hw
      rw [hhs (j + 1) w hw]
      congr 1
      omega
    have hbn' : b + 1 + hs.length = n := by
      rw [← hbn, List.length_cons]
      omega
    simp only [segLoop] at hout
    split_ifs at hout with heq hfull
    · apply ih (b + 1) i cur segs hout (by omega) hbn' htail _ hp
      intro k hik hk
      rcases Nat.lt_succ_iff_lt_or_eq.mp hk with hlt | rfl
      · exact hcur k hik hlt
      · rw [← hv, heq]
    · apply ih (b + 1) b v _ hout (by omega) hbn' htail _ (hp.push h hn hib (by omega) hcur hfull)
      intro k hbk hk
      obtain rfl : k = b := by omega
      exact hv.symm

lemma segments_spec (hor : ℕ → ℤ) {Ha : ℤ} {anyFailed : Bool} {ustar : List ℤ}
    (h : RangeOk lbaSize addr len)
    (hn : len.toNat = lbaSize.toNat * ustar.length)
    (hhor : ∀ k u, ustar[k]? = some u → hor k = horizonOf Ha u)
    (hne : (segments addr lbaSize Ha anyFailed ustar).segs ≠ []) :
    Pushed lbaSize addr hor (segments addr lbaSize Ha anyFailed ustar).segs ustar.length := by
  have hget : ∀ k v, (ustar.map (horizonOf Ha))[k]? = some v → v = hor k := by
    intro k v hv
    rw [List.getElem?_map, Option.map_eq_some_iff] at hv
    obtain ⟨u, hu, rfl⟩ := hv
    exact (hhor k u hu).symm
  have hlen : (ustar.map (horizonOf Ha)).length = ustar.length := List.length_map _
  rw [segments] at hne ⊢
  cases hm : ustar.map (horizonOf Ha) with
  | nil => simp [hm, PlanOutcome.fenced] at hne
  | cons v hs =>
    rw [hm] at hget hlen
    simp only [hm] at hne ⊢
    cases hout : segLoop addr lbaSize hs 1 0 v [] with
    | none => simp [hout, PlanOutcome.fenced] at hne
    | some out =>
      apply segLoop_spec h hn hs 1 0 v [] out hout Nat.one_pos
      · rw [← hlen, List.length_cons, Nat.add_comm]
      · intro j w hw
        rw [hget (j + 1) w hw, Nat.add_comm]
      · intro k _ hk
        obtain rfl : k = 0 := by omega
        exact (hget 0 v rfl).symm
      · exact ⟨by simp [Partition], by simp, by simp⟩

end Segments

end CraftClient.Tracker
