import CraftClient.Wire.Codec

namespace CraftClient.Wire

open Bytes

def membersLoop (body : List UInt8) (off : ℕ) : ℕ → List (ℕ × ℕ) × Option (List Member)
  | 0 => ([], some [])
  | count + 1 =>
    if body.length < off + 16 + 2 then ([], none)
    else
      let alen := decodeLe (slice body (off + 16) 2)
      if body.length < off + 18 + alen then ([(off, 16), (off + 16, 2)], none)
      else
        let rest := membersLoop body (off + 18 + alen) count
        ((off, 16) :: (off + 16, 2) :: (off + 18, alen) :: rest.1,
          rest.2.map (⟨slice body off 16, slice body (off + 18) alen⟩ :: ·))

variable {body : List UInt8} {off count : ℕ} {ms : List Member}

lemma membersLoop_snd (body : List UInt8) (off count : ℕ) :
    (membersLoop body off count).2 = decodeMembers (body.drop off) count := by
  induction count generalizing off with
  | zero => rfl
  | succ count ih =>
    have hslice (k n : ℕ) : slice (body.drop off) k n = slice body (off + k) n := by rw [slice, slice, List.drop_drop]
    rw [membersLoop, decodeMembers, List.length_drop, hslice 16, hslice 18, List.drop_drop, ← Nat.add_assoc off 18,
      ← ih]
    by_cases hhead : body.length < off + 16 + 2
    · rw [if_pos hhead, if_pos (by omega)]
    · by_cases haddr : body.length < off + 18 + decodeLe (slice body (off + 16) 2)
      · rw [if_neg hhead, if_pos haddr, if_pos (by omega)]
      · rw [if_neg hhead, if_neg haddr, if_neg (by omega)]
        rfl

lemma membersLoop_inside : ∀ p ∈ (membersLoop body off count).1, p.1 + p.2 ≤ body.length := by
  induction count generalizing off with
  | zero => exact fun p hp => absurd hp List.not_mem_nil
  | succ count ih =>
    rw [membersLoop]
    by_cases hhead : body.length < off + 16 + 2
    · rw [if_pos hhead]
      exact fun p hp => absurd hp List.not_mem_nil
    · rw [if_neg hhead]
      by_cases haddr : body.length < off + 18 + decodeLe (slice body (off + 16) 2)
      · rw [if_pos haddr]
        simp only [List.forall_mem_cons]
        exact ⟨by omega, by omega, fun p hp => absurd hp List.not_mem_nil⟩
      · rw [if_neg haddr]
        simp only [List.forall_mem_cons]
        exact ⟨by omega, by omega, by omega, ih⟩

lemma length_putMember {m : Member} (hid : m.id.length = 16) : (putMember m).length = 18 + m.addr.length := by
  rw [putMember, List.length_append, List.length_append, length_encodeLe, hid]

lemma decodeMembers_putMember {m : Member} (hid : m.id.length = 16) (haddr : m.addr.length < 2 ^ 16)
    (more : List UInt8) (count : ℕ) :
    decodeMembers (putMember m ++ more) (count + 1) = (decodeMembers more count).map (m :: ·) := by
  have hlen := length_putMember hid
  have hsplit : putMember m ++ more = m.id ++ (encodeLe 2 m.addr.length ++ (m.addr ++ more)) := by
    simp only [putMember, List.append_assoc]
  have halen : decodeLe (slice (putMember m ++ more) 16 2) = m.addr.length := by
    rw [hsplit, ← hid, slice_append_right, List.take_left' (length_encodeLe 2 _), decodeLe_encodeLe]
    exact Nat.mod_eq_of_lt haddr
  have hmem : slice (putMember m ++ more) 18 m.addr.length = m.addr := by
    have h18 : (m.id ++ encodeLe 2 m.addr.length).length = 18 := by rw [List.length_append, length_encodeLe, hid]
    rw [hsplit, ← List.append_assoc, ← h18, slice_append_right, List.take_left]
  rw [decodeMembers, halen, hmem, ← hlen, List.drop_left, if_neg]
  · rw [hsplit, ← hid, List.take_left]
  · rw [List.length_append]
    omega

lemma decodeMembers_flatMap (hms : ∀ m ∈ ms, m.id.length = 16 ∧ m.addr.length < 2 ^ 16) (trailing : List UInt8) :
    decodeMembers (ms.flatMap putMember ++ trailing) ms.length = some ms := by
  induction ms with
  | nil => rfl
  | cons m ms ih =>
    obtain ⟨hid, haddr⟩ := hms m List.mem_cons_self
    rw [List.flatMap_cons, List.append_assoc, List.length_cons, decodeMembers_putMember hid haddr,
      ih fun m' hm' => hms m' (List.mem_cons_of_mem m hm'), Option.map_some]

lemma putMember_slice (hhead : 18 + decodeLe (slice body 16 2) ≤ body.length) :
    putMember ⟨body.take 16, slice body 18 (decodeLe (slice body 16 2))⟩ =
      body.take (18 + decodeLe (slice body 16 2)) := by
  have htwo : (slice body 16 2).length = 2 := length_slice (by omega)
  have hle := encodeLe_decodeLe (slice body 16 2)
  rw [htwo] at hle
  rw [putMember, length_slice hhead, hle, take_append_slice, take_append_slice]

lemma decodeMembers_some (h : decodeMembers body count = some ms) :
    ms.length = count ∧ ms.flatMap putMember <+: body := by
  induction count generalizing body ms with
  | zero =>
    cases h
    exact ⟨rfl, List.nil_prefix⟩
  | succ count ih =>
    rw [decodeMembers] at h
    split_ifs at h with hshort
    rw [not_or, not_lt, not_lt] at hshort
    obtain ⟨rest, hrest, rfl⟩ := Option.map_eq_some_iff.mp h
    obtain ⟨hcount, hpre⟩ := ih hrest
    refine ⟨congrArg (· + 1) hcount, ?_⟩
    rw [List.flatMap_cons, putMember_slice hshort.2]
    conv_rhs => rw [← List.take_append_drop (18 + decodeLe (slice body 16 2)) body]
    exact (List.prefix_append_right_inj _).mpr hpre

theorem member_list_codec :
    (∀ (ms : List Member) (trailing : List UInt8), (∀ m ∈ ms, m.id.length = 16 ∧ m.addr.length < 2 ^ 16) →
      decodeMembers (ms.flatMap putMember ++ trailing) ms.length = some ms) ∧
    ∀ (body : List UInt8) (count : ℕ),
      (membersLoop body 0 count).2 = decodeMembers body count ∧
      (∀ p ∈ (membersLoop body 0 count).1, p.1 + p.2 ≤ body.length) ∧
      (decodeMembers body count = none ∨
        ∃ ms, decodeMembers body count = some ms ∧ ms.length = count ∧ ms.flatMap putMember <+: body) := by
  refine ⟨fun ms trailing hms => decodeMembers_flatMap hms trailing, fun body count => ?_⟩
  refine ⟨membersLoop_snd body 0 count, membersLoop_inside, ?_⟩
  cases h : decodeMembers body count with
  | none => exact .inl rfl
  | some ms => exact .inr ⟨ms, rfl, decodeMembers_some h⟩

theorem member_list_codec_one :
    let m : Member := ⟨List.replicate 16 7, [97, 58, 49]⟩
    decodeMembers (putMember m ++ [1, 2, 3]) 1 = some [m] ∧ decodeMembers (putMember m ++ [1, 2, 3]) 2 = none ∧
      ∀ p ∈ (membersLoop (putMember m ++ [1, 2, 3]) 0 2).1, p.1 + p.2 ≤ 24 := by
  intro m
  refine ⟨member_list_codec.1 [m] [1, 2, 3] ?_, by decide +kernel, (member_list_codec.2 _ 2).2.1⟩
  intro m' hm'
  rw [List.mem_singleton.mp hm']
  exact ⟨rfl, by decide⟩

end CraftClient.Wire
