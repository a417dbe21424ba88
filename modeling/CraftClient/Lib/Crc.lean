import Mathlib.Data.BitVec
import Mathlib.Tactic

/-! Reflected cyclic redundancy checks of `w` bits; the polynomial is given without its leading term. -/

namespace CraftClient.Crc

variable {w : ℕ} (p : BitVec w) {c c' r y : BitVec w} {bits bits' win : List Bool}

def shift (c : BitVec w) : BitVec w := if c.getLsbD 0 then p ^^^ (c >>> 1) else c >>> 1

def feed (c : BitVec w) (b : Bool) : BitVec w := if c.getLsbD 0 ^^ b then p ^^^ (c >>> 1) else c >>> 1

def run (c : BitVec w) (bits : List Bool) : BitVec w := bits.foldl (feed p) c

@[simp] lemma run_nil (c : BitVec w) : run p c [] = c := rfl

@[simp] lemma run_cons (c : BitVec w) (b : Bool) (bits : List Bool) :
    run p c (b :: bits) = run p (feed p c b) bits := rfl

lemma run_append (c : BitVec w) (bits bits' : List Bool) : run p c (bits ++ bits') = run p (run p c bits) bits' :=
  List.foldl_append

section Table

def lowBits (k : ℕ) (v : BitVec w) : List Bool := (List.range k).map v.getLsbD

lemma lowBits_succ (k : ℕ) (v : BitVec w) : lowBits (k + 1) v = lowBits k v ++ [v.getLsbD k] := by
  rw [lowBits, List.range_succ, List.map_append]
  rfl

lemma shift_xor (r y : BitVec w) : shift p (r ^^^ y) = feed p r (y.getLsbD 0) ^^^ (y >>> 1) := by
  rw [shift, feed, BitVec.getLsbD_xor, BitVec.ushiftRight_xor_distrib]
  split_ifs
  · rw [BitVec.xor_assoc]
  · rfl

lemma shift_iterate_xor (k : ℕ) (c v : BitVec w) : (shift p)^[k] (c ^^^ v) = run p c (lowBits k v) ^^^ (v >>> k) := by
  induction k with
  | zero => simp [lowBits]
  | succ k ih =>
    have hbit : (v >>> k).getLsbD 0 = v.getLsbD k := by rw [BitVec.getLsbD_ushiftRight, Nat.add_zero]
    rw [Function.iterate_succ_apply', ih, shift_xor, hbit, lowBits_succ, run_append, BitVec.shiftRight_add]
    rfl

lemma shift_iterate_of_low_zero {k : ℕ} {c v : BitVec w} (hv : ∀ i < k, v.getLsbD i = false) :
    (shift p)^[k] (c ^^^ v) = (shift p)^[k] c ^^^ (v >>> k) := by
  have hlow : lowBits k v = lowBits k 0#w := by
    apply List.map_congr_left
    intro i hi
    rw [hv i (List.mem_range.mp hi)]
    exact BitVec.getLsbD_zero.symm
  have hzero := shift_iterate_xor p k c 0#w
  rw [BitVec.xor_zero] at hzero
  rw [shift_iterate_xor, hlow, hzero]
  simp

lemma shift_iterate_table (k : ℕ) {mask : BitVec w} (hmask : ∀ i, mask.getLsbD i = decide (i < k ∧ i < w))
    (x : BitVec w) : (shift p)^[k] x = (shift p)^[k] (x &&& mask) ^^^ (x >>> k) := by
  have hsplit : x = (x &&& mask) ^^^ (x &&& ~~~mask) := by
    apply BitVec.eq_of_getLsbD_eq
    intro i hi
    simp only [BitVec.getLsbD_xor, BitVec.getLsbD_and, BitVec.getLsbD_not, hmask, hi]
    cases x.getLsbD i <;> cases decide (i < k) <;> simp
  have hlow : ∀ i < k, (x &&& ~~~mask).getLsbD i = false := by
    intro i hi
    rw [BitVec.getLsbD_and, BitVec.getLsbD_not, hmask]
    by_cases hw : i < w <;> simp [hi, hw]
  have hhigh : (x &&& ~~~mask) >>> k = x >>> k := by
    apply BitVec.eq_of_getLsbD_eq
    intro i hi
    rw [BitVec.getLsbD_ushiftRight, BitVec.getLsbD_ushiftRight, BitVec.getLsbD_and, BitVec.getLsbD_not, hmask]
    by_cases hw : k + i < w
    · simp [hw]
    · simp [BitVec.getLsbD_of_ge x (k + i) (by omega)]
  conv_lhs => rw [hsplit]
  rw [shift_iterate_of_low_zero p hlow, hhigh]

end Table

section Burst

lemma feed_xor (c c' : BitVec w) (b b' : Bool) : feed p (c ^^^ c') (b ^^ b') = feed p c b ^^^ feed p c' b' := by
  have hcancel (x y : BitVec w) : (p ^^^ x) ^^^ (p ^^^ y) = x ^^^ y := by
    rw [BitVec.xor_assoc, BitVec.xor_comm x, BitVec.xor_assoc, ← BitVec.xor_assoc p, BitVec.xor_self, BitVec.zero_xor,
      BitVec.xor_comm]
  simp only [feed, BitVec.getLsbD_xor, BitVec.ushiftRight_xor_distrib]
  have hbits : ((c.getLsbD 0 ^^ c'.getLsbD 0) ^^ (b ^^ b')) = ((c.getLsbD 0 ^^ b) ^^ (c'.getLsbD 0 ^^ b')) := by
    simp only [Bool.xor_assoc, Bool.xor_left_comm]
  rw [hbits]
  cases c.getLsbD 0 ^^ b <;> cases c'.getLsbD 0 ^^ b'
  · rfl
  · simp only [Bool.false_xor, if_true, Bool.false_eq_true, if_false]
    rw [← BitVec.xor_assoc, ← BitVec.xor_assoc, BitVec.xor_comm p]
  · simp only [Bool.xor_false, if_true, Bool.false_eq_true, if_false, BitVec.xor_assoc]
  · simp only [Bool.xor_self, Bool.false_eq_true, if_false, if_true, hcancel]

lemma run_xor (hlen : bits.length = bits'.length) :
    run p (c ^^^ c') (List.zipWith xor bits bits') = run p c bits ^^^ run p c' bits' := by
  induction bits generalizing bits' c c' with
  | nil =>
    rw [List.length_nil, eq_comm, List.length_eq_zero_iff] at hlen
    rw [hlen]
    rfl
  | cons b bits ih =>
    cases bits' with
    | nil => exact absurd hlen (Nat.succ_ne_zero _)
    | cons b' bits' => rw [List.zipWith_cons_cons, run_cons, run_cons, run_cons, feed_xor, ih (Nat.succ.inj hlen)]

variable {p} (hp : p.getLsbD (w - 1) = true)

include hp

lemma of_feed_low {b : Bool} (h : (feed p c b).getLsbD (w - 1) = false) : c.getLsbD 0 = b ∧ feed p c b = c >>> 1 := by
  have hw : w - 1 < w := by
    have := BitVec.lt_of_getLsbD hp
    omega
  have htop : (c >>> 1).getLsbD (w - 1) = false := by
    rw [BitVec.getLsbD_ushiftRight]
    exact BitVec.getLsbD_of_ge c _ (by omega)
  rw [feed] at h ⊢
  cases hbit : c.getLsbD 0 ^^ b with
  | false => exact ⟨by simpa using hbit, by simp⟩
  | true =>
    rw [hbit, if_pos rfl, BitVec.getLsbD_xor, hp, htop] at h
    cases h

lemma getLsbD_of_run_eq_zero (hlen : win.length ≤ w) (h : run p c win = 0#w) (i : ℕ) :
    c.getLsbD i = win.getD i false := by
  induction win generalizing c i with
  | nil =>
    rw [run_nil] at h
    rw [h]
    simp
  | cons b win ih =>
    rw [List.length_cons] at hlen
    have hrest := ih (by omega) h
    have htop : (feed p c b).getLsbD (w - 1) = false := by
      rw [hrest, List.getD_eq_getElem?_getD, List.getElem?_eq_none (by omega), Option.getD_none]
    obtain ⟨hzero, hfeed⟩ := of_feed_low hp htop
    cases i with
    | zero => rw [hzero, List.getD_cons_zero]
    | succ i =>
      rw [List.getD_cons_succ, ← hrest i, hfeed, BitVec.getLsbD_ushiftRight, Nat.add_comm 1]

omit hp in
lemma run_zero_of_false (h : ∀ b ∈ bits, b = false) : run p 0#w bits = 0#w := by
  induction bits with
  | nil => rfl
  | cons b bits ih =>
    have hfeed : feed p 0#w b = 0#w := by
      rw [h b List.mem_cons_self]
      simp [feed]
    rw [run_cons, hfeed, ih fun b' hb' => h b' (List.mem_cons_of_mem b hb')]

lemma eq_zero_of_run_false (h : ∀ b ∈ bits, b = false) (hrun : run p c bits = 0#w) : c = 0#w := by
  induction bits generalizing c with
  | nil => exact hrun
  | cons b bits ih =>
    have hfeed : run p c [b] = 0#w := ih (fun b' hb' => h b' (List.mem_cons_of_mem b hb')) hrun
    have hw : [b].length ≤ w := by
      have := BitVec.lt_of_getLsbD hp
      rw [List.length_singleton]
      omega
    apply BitVec.eq_of_getLsbD_eq
    intro i _
    rw [getLsbD_of_run_eq_zero hp hw hfeed, h b List.mem_cons_self]
    cases i <;> simp

theorem run_burst_ne_zero {pre post : List Bool} (hpre : ∀ b ∈ pre, b = false) (hpost : ∀ b ∈ post, b = false)
    (hlen : win.length ≤ w) (hwin : true ∈ win) : run p 0#w (pre ++ (win ++ post)) ≠ 0#w := by
  intro h
  rw [run_append, run_zero_of_false hpre, run_append] at h
  have hzero := getLsbD_of_run_eq_zero hp hlen (eq_zero_of_run_false hp hpost h)
  obtain ⟨i, hi, hget⟩ := List.getElem_of_mem hwin
  have hbit := hzero i
  rw [List.getD_eq_getElem?_getD, List.getElem?_eq_getElem hi, hget] at hbit
  simp at hbit

end Burst

end CraftClient.Crc
