import CraftClient.Net.WireRead

namespace CraftClient.Net

open Bytes Replica Wire

def framedSize (payload lba : UInt32) : ℕ := payload.toNat + (payload.toNat + lba.toNat - 1) / lba.toNat * 24

def FramesIn32 (payload lba : UInt32) : Prop :=
  payload.toNat + lba.toNat ≤ 2 ^ 32 ∧ framedSize payload lba < 2 ^ 32

instance decidableFramesIn32 (payload lba : UInt32) : Decidable (FramesIn32 payload lba) :=
  inferInstanceAs (Decidable (_ ∧ _))

variable {payload lba : UInt32}

lemma toNat_framedBodyMax (hlba : 0 < lba.toNat) (h : FramesIn32 payload lba) :
    (framedBodyMax payload lba).toNat = framedSize payload lba := by
  obtain ⟨hsum, hsize⟩ := h
  have hne : lba ≠ 0 := by
    rintro rfl
    exact absurd hlba (by decide)
  have hlt := payload.toNat_lt
  rw [framedSize] at hsize ⊢
  have hround : (payload + lba - 1).toNat = payload.toNat + lba.toNat - 1 := by
    rw [UInt32.toNat_sub, UInt32.toNat_add]
    have h1 : (1 : UInt32).toNat = 1 := rfl
    rw [h1]
    omega
  have h24 : (24 : UInt32).toNat = 24 := rfl
  simp only [framedBodyMax, if_neg hne]
  rw [UInt32.toNat_add, UInt32.toNat_mul, UInt32.toNat_div, hround, h24]
  generalize (payload.toNat + lba.toNat - 1) / lba.toNat = blocks at hsize ⊢
  rw [Nat.mod_eq_of_lt (show blocks * 24 < 2 ^ 32 by omega), Nat.mod_eq_of_lt hsize]

/-- The largest reply to a read of `n` blocks. Of these `k` are holes that stand alone between two blocks with data,
the last one perhaps at the end. -/
def largestReply (n lba : ℕ) : ℕ :=
  (Finset.range (n / 2 + 1)).sup fun k => (2 * k + min (n - 2 * k) 1) * 24 + (n - k) * lba

lemma runs_le_largestReply {n P : ℕ} {holes : List Bool} (h : holes.length ≤ n) :
    (holes.destutter (· ≠ ·)).length * 24 + holes.count false * P ≤ largestReply n P := by
  obtain ⟨hruns, hcut⟩ := length_destutter_le holes
  have htotal := holes.count_false_add_count_true
  -- holes beyond every second block make no more extents
  let k := min (holes.count true) (n / 2)
  have hk : k ∈ Finset.range (n / 2 + 1) := Finset.mem_range.mpr (by omega)
  refine le_trans (Nat.add_le_add ?_ ?_)
    (Finset.le_sup (f := fun k => (2 * k + min (n - 2 * k) 1) * 24 + (n - k) * P) hk)
  · apply Nat.mul_le_mul_right
    omega
  · apply Nat.mul_le_mul_right
    omega

def RepliesWithin (maxTx lba : UInt32) (bound : ℕ) : Prop :=
  ∀ (c : ClusterConn) (b : ClusterBackend) (r : MemReplica) (req : ReadReq), b.maxTx = maxTx → b.pageSize = lba →
    r.pageSize = lba → r.misaligned req.addr req.len = false → req.len.toNat ≤ maxTx.toNat →
      (c.onRead b r req).1.body.length ≤ bound

lemma length_onRead_le (c : ClusterConn) (b : ClusterBackend) (r : MemReplica) (req : ReadReq) :
    ∃ holes : List Bool, holes.length ≤ req.len.toNat / r.pageSize.toNat ∧ (c.onRead b r req).1.body.length ≤
      (holes.destutter (· ≠ ·)).length * 24 + holes.count false * r.pageSize.toNat := by
  rw [ClusterConn.onRead]
  split_ifs
  · obtain ⟨holes, -, h⟩ := length_readReply_runs r (c.hdr req.hdr) req
    exact ⟨holes, h⟩
  · exact ⟨[], Nat.zero_le _, Nat.zero_le _⟩
  · exact ⟨[], Nat.zero_le _, Nat.zero_le _⟩

lemma repliesWithin_largest (maxTx lba : UInt32) :
    RepliesWithin maxTx lba (largestReply (maxTx.toNat / lba.toNat) lba.toNat) := by
  rintro c b r req - - rfl - hle
  obtain ⟨holes, hlen, hbody⟩ := length_onRead_le c b r req
  exact hbody.trans (runs_le_largestReply (hlen.trans (Nat.div_le_div_right hle)))

lemma largestReply_le_framedSize (hlba : 0 < lba.toNat) :
    largestReply (payload.toNat / lba.toNat) lba.toNat ≤ framedSize payload lba := by
  apply Finset.sup_le
  intro k hk
  have hk := Finset.mem_range.mp hk
  have hmul := Nat.div_mul_le_self payload.toNat lba.toNat
  have hround : payload.toNat / lba.toNat ≤ (payload.toNat + lba.toNat - 1) / lba.toNat :=
    Nat.div_le_div_right (by omega)
  have hdata := Nat.mul_le_mul_right lba.toNat (Nat.sub_le (payload.toNat / lba.toNat) k)
  rw [framedSize]
  omega

def volumeOf (pageSize maxTx : UInt32) : ClusterBackend :=
  ⟨pageSize, 2 ^ 40, maxTx, nilId, [], true, true, fun _ => .error (.craft .notLeader), fun _ _ => .error .timedOut,
    fun _ => .ok (), true, 1⟩

def pagesOf (pageSize : UInt32) (holes : List Bool) : List UInt8 :=
  holes.flatMap fun hole => List.replicate pageSize.toNat (if hole then 0 else 1)

def thinReplica (pageSize : UInt32) (holes : List Bool) : MemReplica :=
  (sessionStart pageSize 7 1).append 0 ((sessionStart pageSize 7 1).writeSlot ⟨1, -1, -1, 7⟩ 0
    (.ofNat (holes.length * pageSize.toNat)) (some (pagesOf pageSize holes)))

section Thin

variable {pageSize : UInt32} {holes : List Bool}

structure OfPages (pageSize : UInt32) (holes : List Bool) : Prop where
  pageSize_pos : 0 < pageSize.toNat
  pages_pos : 0 < holes.length
  lt : holes.length * pageSize.toNat < 2 ^ 32

namespace OfPages

lemma toNat_len (h : OfPages pageSize holes) :
    (UInt64.ofNat (holes.length * pageSize.toNat)).toNat = holes.length * pageSize.toNat :=
  UInt64.toNat_ofNat_of_lt' (h.lt.trans (by decide))

lemma length_lt (h : OfPages pageSize holes) : holes.length < 2 ^ 32 :=
  (Nat.le_mul_of_pos_right _ h.pageSize_pos).trans_lt h.lt

lemma length_pagesOf (pageSize : UInt32) (holes : List Bool) :
    (pagesOf pageSize holes).length = holes.length * pageSize.toNat :=
  length_flatMap_const holes fun _ _ => List.length_replicate

lemma aligned (h : OfPages pageSize holes) :
    (thinReplica pageSize holes).misaligned 0 (.ofNat (holes.length * pageSize.toNat)) = false := by
  have hpos := Nat.mul_pos h.pages_pos h.pageSize_pos
  have hne : UInt64.ofNat (holes.length * pageSize.toNat) ≠ 0 := by
    intro h0
    rw [← UInt64.toNat_inj, h.toNat_len] at h0
    exact hpos.ne' h0
  have hmod : UInt64.ofNat (holes.length * pageSize.toNat) % pageSize.toUInt64 = 0 := by
    rw [← UInt64.toNat_inj, UInt64.toNat_mod, h.toNat_len, UInt32.toNat_toUInt64, Nat.mul_mod_left]
    rfl
  change (0 % pageSize.toUInt64 != 0 || _ % pageSize.toUInt64 != 0 || _ == 0) = false
  rw [hmod, UInt64.zero_mod]
  simpa using hne

lemma blocksOf (h : OfPages pageSize holes) :
    (thinReplica pageSize holes).blocksOf (.ofNat (holes.length * pageSize.toNat)) = holes.length := by
  rw [MemReplica.blocksOf_eq, h.toNat_len]
  change holes.length * pageSize.toNat / pageSize.toNat % 2 ^ 32 = holes.length
  rw [Nat.mul_div_cancel _ h.pageSize_pos, Nat.mod_eq_of_lt h.length_lt]

lemma find {d : ℤ} {s : MemJournalSlot} (h : OfPages pageSize holes)
    (hs : (thinReplica pageSize holes).journal.find d = some s) :
    d = 0 ∧ s.isEmpty = false ∧ s.lba = 0 ∧ s.len.toNat = holes.length ∧ s.allZeros = false ∧
      s.bytes = some (pagesOf pageSize holes) := by
  rw [thinReplica, MemReplica.find_append] at hs
  split_ifs at hs with hd
  · cases hs
    exact ⟨hd, rfl, UInt64.zero_div, h.blocksOf, rfl, rfl⟩
  · cases hs

lemma sized (h : OfPages pageSize holes) : Sized (thinReplica pageSize holes) := by
  refine ⟨fun d s bs hs hb => ?_, fun x c bs hc => ?_⟩
  · obtain ⟨-, -, -, hlen, -, hbytes⟩ := h.find hs
    cases hb.symm.trans hbytes
    rw [hlen, length_pagesOf]
    exact le_rfl
  · cases hc

lemma readBlock_hole (h : OfPages pageSize holes) {i : ℕ} (hi : i < holes.length) :
    ((thinReplica pageSize holes).readBlock 0 (.ofNat i)).hole = holes[i] := by
  obtain ⟨s, hs⟩ : ∃ s, (thinReplica pageSize holes).journal.find 0 = some s := by
    rw [thinReplica, MemReplica.find_append, if_pos rfl]
    exact ⟨_, rfl⟩
  obtain ⟨-, hdata, hlba, hlen, hzeros, hbytes⟩ := h.find hs
  have h0 : (0 : UInt64).toNat = 0 := rfl
  have hx : (UInt64.ofNat i).toNat = i := UInt64.toNat_ofNat_of_lt' (show i < 2 ^ 64 by have := h.length_lt; omega)
  have hend : s.lba.toNat + s.len.toNat < 2 ^ 64 := by
    rw [hlba, hlen, h0]
    have := h.length_lt
    omega
  have hfits : s.Fits (thinReplica pageSize holes).pageSize.toNat := by
    refine ⟨hdata, hend, by rw [hzeros, hbytes]; rfl, fun bs hbs => ?_⟩
    cases hbs.symm.trans hbytes
    rw [hlen, length_pagesOf]
    rfl
  have hcov : s.covers (.ofNat i) = true := by
    rw [MemJournalSlot.covers_iff hend, hlba, hlen, h0, hx]
    omega
  have hpage := slice_flatMap_const (f := fun hole => List.replicate pageSize.toNat (if hole then (0 : UInt8) else 1))
    holes (fun _ _ => List.length_replicate) hi
  rw [MemReplica.readBlock_hole, MemReplica.readBlock_of_find hs hdata (show (-1 : ℤ) < 0 by decide) hcov,
    MemReplica.slotBlock_page hfits hcov, hbytes, hlba, h0, hx]
  change (slice (pagesOf pageSize holes) (i * pageSize.toNat) pageSize.toNat).all _ = _
  obtain ⟨k, hk⟩ := Nat.exists_eq_succ_of_ne_zero h.pageSize_pos.ne'
  rw [pagesOf, hpage, hk]
  cases holes[i] <;> simp

lemma holes_readRange (h : OfPages pageSize holes) :
    (((thinReplica pageSize holes).readRange 0 0 (.ofNat (holes.length * pageSize.toNat))).1.map Block.hole) =
      holes := by
  rw [MemReplica.readRange_blocks, h.blocksOf]
  apply List.ext_getElem
  · simp
  · intro i hi hi'
    simp only [List.getElem_map, List.getElem_range, UInt64.zero_div, UInt64.zero_add]
    exact h.readBlock_hole hi'

end OfPages

lemma length_readBody {P : ℕ} {addr : UInt64} {layout : List IoExtent} {T : List UInt8}
    (h : Layout P addr.toNat holes layout) (hT : T.length = holes.length * P) :
    (readBody layout T addr).length = layout.length * 24 + holes.count false * P := by
  have hslice : ∀ e ∈ layout, (if e.hole then [] else slice T (e.addr - addr).toNat e.len.toNat).length =
      (List.replicate (e.len.toNat / P) e.hole).count false * P := by
    intro e he
    obtain ⟨hlo, hhi⟩ := tiles_mem h.tiles he
    cases e.hole with
    | true => simp [List.count_replicate]
    | false =>
      rw [if_neg Bool.false_ne_true, List.count_replicate_self, Nat.div_mul_cancel (h.pages e he),
        UInt64.toNat_sub_of_le _ _ (UInt64.le_iff_toNat_le.mpr hlo), length_slice (by omega)]
  rw [readBody, List.length_append, length_encodeExtents, List.length_flatMap, ← h.holes, List.count_flatMap,
    ← List.sum_map_mul_right, List.map_congr_left hslice]
  rfl

lemma length_onRead_thin (h : OfPages pageSize holes) (maxTx : UInt32) :
    ((⟨1, true⟩ : ClusterConn).onRead (volumeOf pageSize maxTx) (thinReplica pageSize holes)
      (readRequest ⟨1, -1, -1, 0⟩ 0 0 (.ofNat (holes.length * pageSize.toNat)))).1.body.length =
        (holes.destutter (· ≠ ·)).length * 24 + holes.count false * pageSize.toNat := by
  have hm := h.aligned
  have hpages : (UInt64.ofNat (holes.length * pageSize.toNat)).toNat / (thinReplica pageSize holes).pageSize.toNat <
      2 ^ 32 := by
    rw [h.toNat_len]
    change holes.length * pageSize.toNat / pageSize.toNat < 2 ^ 32
    rw [Nat.mul_div_cancel _ h.pageSize_pos]
    exact h.length_lt
  have hup : (thinReplica pageSize holes).applyUpTo (-1) = thinReplica pageSize holes := rfl
  have hT := length_rangeBytes (H := 0) h.sized hm hpages
  rw [h.toNat_len] at hT
  have hlayout := MemReplica.layout_readRange (H := 0) hm (by
    rw [h.toNat_len]
    exact (Nat.zero_add _).le.trans (h.lt.le.trans (by decide)))
  obtain ⟨next, hcoal⟩ := (thinReplica pageSize holes).coalesced_readRange 0 0
    (.ofNat (holes.length * pageSize.toNat))
  have hruns := congrArg List.length hcoal.runs
  rw [h.holes_readRange] at hlayout hruns
  rw [List.length_map] at hruns
  change (readReply (thinReplica pageSize holes) ⟨1, -1, -1, 0⟩
    (readRequest ⟨1, -1, -1, 0⟩ 0 0 _)).1.body.length = _
  rw [readReply_eq h.sized hm rfl hpages, hup, ← hruns]
  exact length_readBody hlayout hT

end Thin

section Cut

def cutBlocks : ℕ → List Bool
  | 0 => []
  | k + 1 => cutBlocks k ++ [false] ++ [true]

variable (k m : ℕ)

lemma getLast_cutBlocks : (cutBlocks k).getLast? ≠ some false := by
  cases k with
  | zero => exact (Option.some_ne_none false).symm
  | succ k =>
    rw [cutBlocks, List.getLast?_concat]
    decide

lemma runs_cutBlocks : ((cutBlocks k).destutter (· ≠ ·)).length = 2 * k := by
  induction k with
  | zero => rfl
  | succ k ih =>
    rw [cutBlocks, destutter_concat, List.getLast?_concat, if_neg (by decide), destutter_concat,
      if_neg (getLast_cutBlocks k), List.length_append, List.length_append, ih]
    rfl

lemma count_cutBlocks : (cutBlocks k).length = 2 * k ∧ (cutBlocks k).count false = k := by
  induction k with
  | zero => exact ⟨rfl, rfl⟩
  | succ k ih =>
    rw [cutBlocks, List.length_append, List.length_append, List.count_append, List.count_append, ih.1, ih.2]
    exact ⟨by rw [Nat.mul_succ]; rfl, rfl⟩

lemma runs_cutBlocks_append :
    ((cutBlocks k ++ List.replicate m false).destutter (· ≠ ·)).length = 2 * k + min m 1 := by
  induction m with
  | zero =>
    rw [List.replicate_zero, List.append_nil, runs_cutBlocks]
    rfl
  | succ m ih =>
    rw [List.replicate_succ', ← List.append_assoc, destutter_concat]
    cases m with
    | zero =>
      rw [List.replicate_zero, List.append_nil, if_neg (getLast_cutBlocks k), List.length_append, runs_cutBlocks]
      rfl
    | succ m =>
      rw [List.replicate_succ', ← List.append_assoc, List.getLast?_concat, if_pos rfl, List.append_assoc,
        ← List.replicate_succ', ih]
      omega

end Cut

lemma largestReply_le {maxTx lba : UInt32} {bound : ℕ} (hlba : 0 < lba.toNat) (h : RepliesWithin maxTx lba bound) :
    largestReply (maxTx.toNat / lba.toNat) lba.toNat ≤ bound := by
  apply Finset.sup_le
  intro k hk
  have hk := Finset.mem_range.mp hk
  have hmul := Nat.div_mul_le_self maxTx.toNat lba.toNat
  have hlt := maxTx.toNat_lt
  generalize hn : maxTx.toNat / lba.toNat = n at hk hmul ⊢
  rcases Nat.eq_zero_or_pos n with rfl | hpos
  · obtain rfl : k = 0 := by omega
    simp
  let holes := cutBlocks k ++ List.replicate (n - 2 * k) false
  obtain ⟨hcut, hcount⟩ := count_cutBlocks k
  have hlen : holes.length = n := by
    rw [List.length_append, hcut, List.length_replicate]
    omega
  have hfalse : holes.count false = n - k := by
    rw [List.count_append, hcount, List.count_replicate_self]
    omega
  have hpages : OfPages lba holes := ⟨hlba, hlen.symm ▸ hpos, by rw [hlen]; omega⟩
  have hbody := h ⟨1, true⟩ (volumeOf lba maxTx) (thinReplica lba holes)
    (readRequest ⟨1, -1, -1, 0⟩ 0 0 (.ofNat (holes.length * lba.toNat))) rfl rfl rfl hpages.aligned
    (hpages.toNat_len.trans_le (by rwa [hlen]))
  rwa [length_onRead_thin hpages, runs_cutBlocks_append, hfalse] at hbody

theorem full_size_read_fits (maxTx lba : UInt32) (hlba : 0 < lba.toNat) :
    (FramesIn32 maxTx lba → RepliesWithin maxTx lba (framedBodyMax maxTx lba).toNat) ∧
      (RepliesWithin maxTx lba kMaxTx.toNat ↔
        largestReply (maxTx.toNat / lba.toNat) lba.toNat ≤ kMaxTx.toNat) := by
  have hlargest := repliesWithin_largest maxTx lba
  constructor
  · intro h c b r req h₁ h₂ h₃ h₄ h₅
    rw [toNat_framedBodyMax hlba h]
    exact (hlargest c b r req h₁ h₂ h₃ h₄ h₅).trans (largestReply_le_framedSize hlba)
  · exact ⟨largestReply_le hlba, fun hle c b r req h₁ h₂ h₃ h₄ h₅ => (hlargest c b r req h₁ h₂ h₃ h₄ h₅).trans hle⟩

theorem full_size_read_fits_defaults :
    RepliesWithin kDefaultMaxTx 512 (framedBodyMax kDefaultMaxTx 512).toNat ∧
      RepliesWithin kDefaultMaxTx 512 kMaxTx.toNat := by
  have hframes : FramesIn32 kDefaultMaxTx 512 := by decide
  obtain ⟨hring, hblocking⟩ := full_size_read_fits kDefaultMaxTx 512 (by decide)
  exact ⟨hring hframes, hblocking.mpr ((largestReply_le_framedSize (by decide)).trans (by decide))⟩

theorem one_block_over_bounds :
    (framedBodyMax 4269948928 4096).toNat <
        ((⟨1, true⟩ : ClusterConn).onRead (volumeOf 4096 4269948928) (thinReplica 4096 [false])
          (readRequest ⟨1, -1, -1, 0⟩ 0 0 4096)).1.body.length ∧
      kMaxTx.toNat <
        ((⟨1, true⟩ : ClusterConn).onRead (volumeOf 1048576 1048576) (thinReplica 1048576 [false])
          (readRequest ⟨1, -1, -1, 0⟩ 0 0 1048576)).1.body.length := by
  have hsmall := @length_onRead_thin 4096 [false] ⟨by decide, by decide, by decide⟩ 4269948928
  have hlarge := @length_onRead_thin 1048576 [false] ⟨by decide, by decide, by decide⟩ 1048576
  exact ⟨hsmall.symm ▸ by decide, hlarge.symm ▸ by decide⟩

end CraftClient.Net
