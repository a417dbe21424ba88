import Mathlib.Data.UInt
import Mathlib.Tactic

namespace CraftClient.Bytes

def encodeLe : ℕ → ℕ → List UInt8
  | 0, _ => []
  | k + 1, n => UInt8.ofNat n :: encodeLe k (n / 256)

def decodeLe : List UInt8 → ℕ
  | [] => 0
  | b :: bs => b.toNat + 256 * decodeLe bs

@[simp] lemma length_encodeLe (k n : ℕ) : (encodeLe k n).length = k := by
  induction k generalizing n with
  | zero => rfl
  | succ k ih => rw [encodeLe, List.length_cons, ih]

lemma decodeLe_encodeLe (k n : ℕ) : decodeLe (encodeLe k n) = n % 256 ^ k := by
  induction k generalizing n with
  | zero => simp [encodeLe, decodeLe, Nat.mod_one]
  | succ k ih =>
    rw [encodeLe, decodeLe, ih, UInt8.toNat_ofNat', pow_succ' 256 k, Nat.mod_mul]

lemma encodeLe_decodeLe (bs : List UInt8) : encodeLe bs.length (decodeLe bs) = bs := by
  induction bs with
  | nil => rfl
  | cons b bs ih =>
    have hb := b.toNat_lt
    have hlow : UInt8.ofNat (b.toNat + 256 * decodeLe bs) = b := by
      apply UInt8.toNat_inj.mp
      rw [UInt8.toNat_ofNat']
      omega
    have hhigh : (b.toNat + 256 * decodeLe bs) / 256 = decodeLe bs := by omega
    rw [List.length_cons, encodeLe, decodeLe, hlow, hhigh, ih]

section Slice

variable {α : Type*} {buf more : List α} {off n : ℕ}

lemma length_flatMap_const {ι : Type*} {f : ι → List α} {k : ℕ} (l : List ι) (h : ∀ a ∈ l, (f a).length = k) :
    (l.flatMap f).length = l.length * k := by
  rw [List.length_flatMap, List.sum_eq_card_nsmul _ k, List.length_map, smul_eq_mul]
  intro m hm
  obtain ⟨a, ha, rfl⟩ := List.mem_map.mp hm
  exact h a ha

lemma countP_eq_one_iff {p : α → Bool} {l : List α} : l.countP p = 1 ↔ ∃! k : ℕ, ∃ a, l[k]? = some a ∧ p a = true := by
  induction l with
  | nil => simp
  | cons a l ih =>
    cases ha : p a with
    | true =>
      rw [List.countP_cons_of_pos ha, Nat.add_eq_right, List.countP_eq_zero]
      constructor
      · intro hnone
        refine ⟨0, ⟨a, rfl, ha⟩, ?_⟩
        rintro (_ | k) ⟨b, hb, hpb⟩
        · rfl
        · exact absurd hpb (hnone b (List.mem_of_getElem? hb))
      · rintro ⟨k, -, huniq⟩ b hb hpb
        obtain ⟨j, hj⟩ := List.mem_iff_getElem?.mp hb
        have hzero := huniq 0 ⟨a, rfl, ha⟩
        have hsucc := huniq (j + 1) ⟨b, hj, hpb⟩
        omega
    | false =>
      rw [List.countP_cons_of_neg (by rw [ha]; exact Bool.false_ne_true), ih]
      constructor
      · rintro ⟨k, hk, huniq⟩
        refine ⟨k + 1, hk, ?_⟩
        rintro (_ | j) ⟨b, hb, hpb⟩
        · cases hb
          rw [ha] at hpb
          cases hpb
        · exact congrArg (· + 1) (huniq j ⟨b, hb, hpb⟩)
      · rintro ⟨_ | k, ⟨b, hb, hpb⟩, huniq⟩
        · cases hb
          rw [ha] at hpb
          cases hpb
        · exact ⟨k, ⟨b, hb, hpb⟩, fun j hj => Nat.succ.inj (huniq (j + 1) hj)⟩

def slice (buf : List α) (off n : ℕ) : List α := (buf.drop off).take n

lemma slice_flatMap_const {ι : Type*} {f : ι → List α} {k i : ℕ} (l : List ι) (h : ∀ a ∈ l, (f a).length = k)
    (hi : i < l.length) : slice (l.flatMap f) (i * k) k = f l[i] := by
  induction l generalizing i with
  | nil => exact absurd hi (Nat.not_lt_zero i)
  | cons a l ih =>
    obtain ⟨ha, hl⟩ := List.forall_mem_cons.mp h
    rw [slice, List.flatMap_cons]
    cases i with
    | zero =>
      rw [Nat.zero_mul, List.drop_zero]
      exact List.take_left' ha
    | succ i =>
      rw [Nat.succ_mul, Nat.add_comm, ← List.drop_drop, List.drop_left' ha]
      exact ih hl (Nat.lt_of_succ_lt_succ hi)

lemma length_slice (h : off + n ≤ buf.length) : (slice buf off n).length = n := by
  rw [slice, List.length_take, List.length_drop]
  omega

lemma slice_append (h : off + n ≤ buf.length) : slice (buf ++ more) off n = slice buf off n := by
  rw [slice, slice, List.drop_append_of_le_length (by omega), List.take_append_of_le_length]
  rw [List.length_drop]
  omega

lemma take_append_slice (buf : List α) (off n : ℕ) : buf.take off ++ slice buf off n = buf.take (off + n) := by
  rw [slice, List.take_add]

lemma slice_append_right (a b : List α) (n : ℕ) : slice (a ++ b) a.length n = b.take n := by
  rw [slice, List.drop_left]

lemma slice_append_right' {a : List α} {k : ℕ} (h : a.length = k) (b : List α) (n : ℕ) :
    slice (a ++ b) k n = b.take n := by
  rw [← h, slice_append_right]

lemma slice_append_add (a b : List α) (k n : ℕ) : slice (a ++ b) (a.length + k) n = slice b k n := by
  rw [slice, slice, List.drop_append, List.drop_eq_nil_of_le (by omega), List.nil_append, Nat.add_sub_cancel_left]

lemma slice_front (h : buf.length = n) : slice (buf ++ more) 0 n = buf := List.take_left' h

lemma slice_skip {k : ℕ} (h : buf.length ≤ k) : slice (buf ++ more) k n = slice more (k - buf.length) n := by
  obtain ⟨j, rfl⟩ := Nat.exists_eq_add_of_le h
  rw [slice_append_add, Nat.add_sub_cancel_left]

lemma slice_self (h : buf.length = n) : slice buf 0 n = buf := h ▸ List.take_length

end Slice

section Overwrite

variable {α : Type*} {buf src : List α} {off : ℕ}

def overwrite (buf : List α) (off : ℕ) (src : List α) : List α :=
  buf.take off ++ src ++ buf.drop (off + src.length)

lemma length_overwrite (h : off + src.length ≤ buf.length) : (overwrite buf off src).length = buf.length := by
  simp only [overwrite, List.length_append, List.length_take, List.length_drop]
  omega

lemma getElem?_overwrite (h : off + src.length ≤ buf.length) (i : ℕ) :
    (overwrite buf off src)[i]? = if off ≤ i ∧ i < off + src.length then src[i - off]? else buf[i]? := by
  have hoff : (buf.take off).length = off := List.length_take_of_le (by omega)
  rw [overwrite, List.append_assoc]
  rcases lt_or_ge i off with hlt | hge
  · rw [List.getElem?_append_left (by omega), List.getElem?_take_of_lt hlt, if_neg (by omega)]
  · rw [List.getElem?_append_right (by omega), hoff]
    rcases lt_or_ge i (off + src.length) with hlt | hge'
    · rw [List.getElem?_append_left (by omega), if_pos ⟨hge, hlt⟩]
    · rw [List.getElem?_append_right (by omega), List.getElem?_drop, if_neg (by omega)]
      congr 1
      omega

lemma getElem?_slice (buf : List α) (off n i : ℕ) : (slice buf off n)[i]? = if i < n then buf[off + i]? else none := by
  rw [slice, List.getElem?_take, List.getElem?_drop]

def restore (src : List α) (buf : List α) (ranges : List (ℕ × ℕ)) : List α :=
  ranges.foldl (fun buf p => overwrite buf p.1 (slice src p.1 p.2)) buf

lemma getElem?_restore {ranges : List (ℕ × ℕ)} (hlen : buf.length = src.length)
    (h : ∀ p ∈ ranges, p.1 + p.2 ≤ src.length) : (restore src buf ranges).length = src.length ∧
      ∀ i, (restore src buf ranges)[i]? =
        if ∃ p ∈ ranges, p.1 ≤ i ∧ i < p.1 + p.2 then src[i]? else buf[i]? := by
  induction ranges generalizing buf with
  | nil => exact ⟨hlen, fun i => by simp [restore]⟩
  | cons p ranges ih =>
    have hp := h p List.mem_cons_self
    have hs : (slice src p.1 p.2).length = p.2 := length_slice hp
    have hbuf : (overwrite buf p.1 (slice src p.1 p.2)).length = src.length := by
      rw [length_overwrite (by omega), hlen]
    obtain ⟨hl, hget⟩ := ih hbuf fun q hq => h q (List.mem_cons_of_mem _ hq)
    refine ⟨hl, fun i => (hget i).trans ?_⟩
    have hhead : (overwrite buf p.1 (slice src p.1 p.2))[i]? =
        if p.1 ≤ i ∧ i < p.1 + p.2 then src[i]? else buf[i]? := by
      rw [getElem?_overwrite (by omega), hs]
      split_ifs with hi
      · rw [getElem?_slice, if_pos (by omega), Nat.add_sub_cancel' hi.1]
      · rfl
    simp only [List.mem_cons, exists_eq_or_imp]
    by_cases hrest : ∃ q ∈ ranges, q.1 ≤ i ∧ i < q.1 + q.2
    · rw [if_pos hrest, if_pos (Or.inr hrest)]
    · rw [if_neg hrest, hhead]
      by_cases hi : p.1 ≤ i ∧ i < p.1 + p.2
      · rw [if_pos hi, if_pos (Or.inl hi)]
      · rw [if_neg hi, if_neg (not_or.mpr ⟨hi, hrest⟩)]

lemma restore_eq {ranges : List (ℕ × ℕ)} (hlen : buf.length = src.length)
    (h : ∀ p ∈ ranges, p.1 + p.2 ≤ src.length)
    (hcover : ∀ i < src.length, ∃ p ∈ ranges, p.1 ≤ i ∧ i < p.1 + p.2) : restore src buf ranges = src := by
  obtain ⟨hl, hget⟩ := getElem?_restore hlen h
  apply List.ext_getElem?
  intro i
  rw [hget]
  rcases lt_or_ge i src.length with hlt | hge
  · rw [if_pos (hcover i hlt)]
  · split_ifs
    · rfl
    · rw [List.getElem?_eq_none (by omega), List.getElem?_eq_none hge]

end Overwrite

end CraftClient.Bytes
