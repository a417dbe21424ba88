import CraftClient.Lib.Crc
import CraftClient.Wire.Stream

/-! The digests of a message: what the CRC of the body detects, and when the one of the header is looked at. -/

namespace CraftClient.Wire

open Bytes

section Castagnoli

def castagnoli : BitVec 32 := 0x82F63B78#32

def bitsOf (bs : List UInt8) : List Bool := bs.flatMap fun b => Crc.lowBits 8 b.toBitVec

lemma bitsOf_cons (b : UInt8) (bs : List UInt8) : bitsOf (b :: bs) = Crc.lowBits 8 b.toBitVec ++ bitsOf bs := rfl

def crc32cBitwise (data : List UInt8) : BitVec 32 := ~~~ Crc.run castagnoli (~~~ 0#32) (bitsOf data)

lemma crc32cBit_toBitVec (c : UInt32) : (crc32cBit c).toBitVec = Crc.shift castagnoli c.toBitVec := by
  have hlow : (c &&& 1).toBitVec = BitVec.setWidth 32 (BitVec.ofBool (c.toBitVec.getLsbD 0)) := by
    rw [UInt32.toBitVec_and]
    exact BitVec.and_one_eq_setWidth_ofBool_getLsbD
  have hodd : c &&& 1 ≠ 0 ↔ c.toBitVec.getLsbD 0 = true := by
    rw [Ne, ← UInt32.toBitVec_inj, hlow]
    cases c.toBitVec.getLsbD 0 <;> decide
  rw [crc32cBit, Crc.shift]
  by_cases h : c &&& 1 ≠ 0
  · rw [if_pos h, if_pos (hodd.mp h)]
    simp [castagnoli]
  · rw [if_neg h, if_neg fun hb => h (hodd.mpr hb)]
    simp

lemma crc32cTable_getD {i : UInt32} (hi : i.toNat < 256) :
    (crc32cTable.getD i.toNat 0).toBitVec = (Crc.shift castagnoli)^[8] i.toBitVec := by
  have hget : crc32cTable.getD i.toNat 0 = Nat.repeat crc32cBit 8 i := by
    rw [List.getD_eq_getElem?_getD, crc32cTable, List.getElem?_map, List.getElem?_range hi, Option.map_some,
      Option.getD_some, UInt32.ofNat_toNat]
  rw [hget]
  simp only [Nat.repeat, crc32cBit_toBitVec]
  rfl

lemma crc32c_byte (crc : UInt32) (b : UInt8) :
    (crc32cTable.getD ((crc ^^^ b.toUInt32) &&& 0xFF).toNat 0 ^^^ (crc >>> 8)).toBitVec =
      Crc.run castagnoli crc.toBitVec (Crc.lowBits 8 b.toBitVec) := by
  have hword : b.toUInt32.toBitVec = b.toBitVec.setWidth 32 := UInt8.toBitVec_toUInt32 b
  have hindex : ((crc ^^^ b.toUInt32) &&& 0xFF).toNat < 256 := by
    rw [UInt32.toNat_and]
    exact Nat.and_lt_two_pow _ (by decide : (0xFF : UInt32).toNat < 2 ^ 8)
  have hmask (i : ℕ) : (0xFF#32).getLsbD i = decide (i < 8 ∧ i < 32) := by
    rw [BitVec.getLsbD_ofNat, show (0xFF : ℕ) = 2 ^ 8 - 1 from rfl, Nat.testBit_two_pow_sub_one, Bool.and_comm,
      Bool.decide_and]
  have hrest : b.toUInt32.toBitVec >>> 8 = 0#32 := by
    rw [hword]
    apply BitVec.eq_of_getLsbD_eq
    intro i _
    rw [BitVec.getLsbD_ushiftRight, BitVec.getLsbD_setWidth, BitVec.getLsbD_of_ge b.toBitVec (8 + i) (by omega)]
    simp
  have hbits : Crc.lowBits 8 b.toUInt32.toBitVec = Crc.lowBits 8 b.toBitVec := by
    apply List.map_congr_left
    intro i hi
    have hlt : i < 32 := (List.mem_range.mp hi).trans (by decide)
    rw [hword, BitVec.getLsbD_setWidth, decide_eq_true hlt, Bool.true_and]
  have htable := Crc.shift_iterate_table castagnoli 8 hmask (crc.toBitVec ^^^ b.toUInt32.toBitVec)
  have hfeed := Crc.shift_iterate_xor castagnoli 8 crc.toBitVec b.toUInt32.toBitVec
  rw [hrest, BitVec.xor_zero, hbits] at hfeed
  rw [← hfeed, htable, UInt32.toBitVec_xor, crc32cTable_getD hindex, BitVec.ushiftRight_xor_distrib, hrest,
    BitVec.xor_zero]
  rfl

lemma crc32c_foldl (data : List UInt8) (crc : UInt32) :
    (data.foldl (fun (crc : UInt32) b =>
        crc32cTable.getD ((crc ^^^ b.toUInt32) &&& 0xFF).toNat 0 ^^^ (crc >>> 8)) crc).toBitVec =
      Crc.run castagnoli crc.toBitVec (bitsOf data) := by
  induction data generalizing crc with
  | nil => rfl
  | cons b data ih => rw [List.foldl_cons, ih, crc32c_byte, bitsOf_cons, Crc.run_append]

lemma crc32c_eq_bitwise (data : List UInt8) : (crc32c data).toBitVec = crc32cBitwise data := by
  rw [crc32c, UInt32.toBitVec_not, crc32c_foldl, crc32cBitwise]
  rfl

end Castagnoli

section Burst

variable {body body' : List UInt8} {start : ℕ}

lemma length_bitsOf (bs : List UInt8) : (bitsOf bs).length = 8 * bs.length := by
  rw [bitsOf, length_flatMap_const bs (k := 8), Nat.mul_comm]
  intro b _
  rw [Crc.lowBits, List.length_map, List.length_range]

lemma lowBits_injective {b b' : UInt8} (h : Crc.lowBits 8 b.toBitVec = Crc.lowBits 8 b'.toBitVec) : b = b' := by
  apply UInt8.toBitVec_inj.mp
  apply BitVec.eq_of_getLsbD_eq
  intro i hi
  exact List.map_inj_left.mp h i (List.mem_range.mpr hi)

lemma bitsOf_injective (hlen : body'.length = body.length) (h : bitsOf body = bitsOf body') : body' = body := by
  induction body generalizing body' with
  | nil => exact List.length_eq_zero_iff.mp hlen
  | cons b body ih =>
    cases body' with
    | nil => exact absurd hlen.symm (Nat.succ_ne_zero _)
    | cons b' body' =>
      have hbyte : (Crc.lowBits 8 b.toBitVec).length = (Crc.lowBits 8 b'.toBitVec).length := by
        simp only [Crc.lowBits, List.length_map]
      obtain ⟨hb, hrest⟩ := List.append_inj h hbyte
      rw [lowBits_injective hb, ih (Nat.succ.inj hlen) hrest]

def Burst (body body' : List UInt8) (start : ℕ) : Prop :=
  ∀ k, (bitsOf body)[k]? ≠ (bitsOf body')[k]? → start ≤ k ∧ k < start + 32

lemma getElem?_difference (hlen : body'.length = body.length) (k : ℕ) :
    (List.zipWith xor (bitsOf body) (bitsOf body'))[k]? = some true ↔ (bitsOf body)[k]? ≠ (bitsOf body')[k]? := by
  have hbits : (bitsOf body').length = (bitsOf body).length := by rw [length_bitsOf, length_bitsOf, hlen]
  rw [List.getElem?_zipWith]
  by_cases hk : k < (bitsOf body).length
  · rw [List.getElem?_eq_getElem hk, List.getElem?_eq_getElem (hbits ▸ hk)]
    simp
  · rw [List.getElem?_eq_none (not_lt.mp hk), List.getElem?_eq_none (hbits ▸ not_lt.mp hk)]
    simp

lemma crc32c_burst (hlen : body'.length = body.length) (hne : body' ≠ body) (h : Burst body body' start) :
    crc32c body' ≠ crc32c body := by
  set d := List.zipWith xor (bitsOf body) (bitsOf body') with hd
  have hset (k : ℕ) (hk : d[k]? = some true) : start ≤ k ∧ k < start + 32 := h k ((getElem?_difference hlen k).mp hk)
  -- the difference is clear before and behind the window
  have hpre : ∀ b ∈ d.take start, b = false := by
    intro b hb
    obtain ⟨k, hk⟩ := List.mem_iff_getElem?.mp hb
    rw [Bool.eq_false_iff]
    rintro rfl
    rw [List.getElem?_take] at hk
    split_ifs at hk with hlt
    exact absurd (hset k hk).1 (not_le.mpr hlt)
  have hpost : ∀ b ∈ (d.drop start).drop 32, b = false := by
    intro b hb
    obtain ⟨k, hk⟩ := List.mem_iff_getElem?.mp hb
    rw [Bool.eq_false_iff]
    rintro rfl
    rw [List.drop_drop, List.getElem?_drop] at hk
    have := (hset _ hk).2
    omega
  have hwin : true ∈ (d.drop start).take 32 := by
    obtain ⟨k, hk⟩ : ∃ k, (bitsOf body)[k]? ≠ (bitsOf body')[k]? := by
      by_contra hall
      push Not at hall
      exact hne (bitsOf_injective hlen (List.ext_getElem? hall))
    obtain ⟨hge, hlt⟩ := h k hk
    apply List.mem_iff_getElem?.mpr
    refine ⟨k - start, ?_⟩
    rw [List.getElem?_take, if_pos (by omega), List.getElem?_drop, Nat.add_sub_cancel' hge]
    exact (getElem?_difference hlen k).mpr hk
  have hrun := Crc.run_burst_ne_zero (p := castagnoli) rfl hpre hpost (List.length_take_le _ _) hwin
  rw [List.take_append_drop, List.take_append_drop] at hrun
  intro heq
  apply hrun
  have hbits : (bitsOf body).length = (bitsOf body').length := by rw [length_bitsOf, length_bitsOf, hlen]
  have hxor : Crc.run castagnoli (~~~ 0#32 ^^^ ~~~ 0#32) d = _ := Crc.run_xor castagnoli hbits
  have hcrc := congrArg UInt32.toBitVec heq
  rw [crc32c_eq_bitwise, crc32c_eq_bitwise, crc32cBitwise, crc32cBitwise] at hcrc
  rw [BitVec.xor_self] at hxor
  rw [hxor, BitVec.not_inj.mp hcrc, BitVec.xor_self]

variable {maxTx : UInt32}

def Outgoing.corrupted (m : Outgoing maxTx) (dg : DigestCfg) (body' : List UInt8) : List UInt8 :=
  overwrite (m.frame dg) (8 + m.opHeader.length + dg.headerSize) body'

lemma Outgoing.digestOk_frame (m : Outgoing maxTx) {dg : DigestCfg} (hdg : dg.data = true) :
    digestOk (m.frame dg) (8 + m.opHeader.length + dg.headerSize + m.body.length) m.body = true := by
  have hframe := m.parseBody_frame dg
  simp only [parseBody, m.bodyLen_toNat, hdg, Bool.true_and] at hframe
  split_ifs at hframe with hlen hhead hdata
  have hbody : slice (m.frame dg) (8 + m.opHeader.length + dg.headerSize) m.body.length = m.body :=
    congrArg Message.body (Except.ok.inj hframe)
  rw [hbody] at hdata
  simpa using hdata

lemma Outgoing.parseMessage_corrupted (m : Outgoing maxTx) {dg : DigestCfg} (hdg : dg.data = true)
    (hlen : body'.length = m.body.length) (hcrc : crc32c body' ≠ crc32c m.body) :
    parseMessage (m.corrupted dg body') maxTx dg = .error .badDigest := by
  set off := 8 + m.opHeader.length + dg.headerSize with hoff
  have hframe : (m.frame dg).length = off + m.body.length + dg.dataSize := m.length_frame dg
  have hsize : (m.corrupted dg body').length = (m.frame dg).length := length_overwrite (by omega)
  have htake : ((m.frame dg).take off).length = off := List.length_take_of_le (by omega)
  have hsplit : m.corrupted dg body' = (m.frame dg).take off ++ (body' ++ (m.frame dg).drop (off + m.body.length)) := by
    rw [Outgoing.corrupted, overwrite, List.append_assoc, hlen]
  have hdec : MsgHdr.decode (m.corrupted dg body') = m.hdr := by
    have h8 : 8 ≤ ((m.frame dg).take off).length := by omega
    rw [hsplit, MsgHdr.decode_append h8, ← m.decode_frame dg]
    conv_rhs => rw [← List.take_append_drop off (m.frame dg)]
    exact (MsgHdr.decode_append h8 _).symm
  have hbody : slice (m.corrupted dg body') off m.body.length = body' := by
    rw [hsplit, slice_append_right' htake, List.take_left' hlen]
  have hstored : slice (m.corrupted dg body') (off + m.body.length) 4 =
      slice (m.frame dg) (off + m.body.length) 4 := by
    have hfront : ((m.frame dg).take off ++ body').length = off + m.body.length := by
      rw [List.length_append, htake, hlen]
    rw [hsplit, ← List.append_assoc, slice_append_right' hfront]
    rfl
  have hbad : digestOk (m.corrupted dg body') (off + m.body.length) body' = false := by
    have hgood := m.digestOk_frame hdg
    rw [digestOk, beq_iff_eq] at hgood
    rw [digestOk, hstored, hgood, beq_eq_false_iff_ne]
    exact fun h => hcrc (UInt32.toNat_inj.mp h).symm
  rw [m.parseMessage_of_hdr dg (by omega) hdec]
  simp only [parseBody, m.bodyLen_toNat]
  rw [← hoff, hbody, hbad, hdg, if_neg (by omega)]
  simp only [Bool.not_false, Bool.and_true, if_true, ite_self]

theorem digest_is_castagnoli_crc :
    (∀ data : List UInt8, (crc32c data).toBitVec = crc32cBitwise data) ∧
    ∀ (maxTx : UInt32) (m : Outgoing maxTx) (dg : DigestCfg) (body' : List UInt8) (start : ℕ), dg.data = true →
      body'.length = m.body.length → body' ≠ m.body → Burst m.body body' start →
      parseMessage (m.frame dg) maxTx dg = .ok (m.message dg) ∧
        parseMessage (m.corrupted dg body') maxTx dg = .error .badDigest :=
  ⟨crc32c_eq_bitwise, fun _ m dg _ _ hdg hlen hne hburst =>
    ⟨m.parseMessage_frame dg, m.parseMessage_corrupted hdg hlen (crc32c_burst hlen hne hburst)⟩⟩

theorem digest_is_castagnoli_crc_oneByte :
    let m : Outgoing 64 := ⟨.write, 0, 1, List.replicate 40 0, [0], rfl, fun _ => rfl, by decide⟩
    parseMessage (m.corrupted ⟨true, true⟩ [1]) 64 ⟨true, true⟩ = .error .badDigest := by
  intro m
  refine (digest_is_castagnoli_crc.2 64 m ⟨true, true⟩ [1] 0 rfl rfl (by decide) ?_).2
  intro k hk
  refine ⟨Nat.zero_le k, ?_⟩
  by_contra hge
  apply hk
  rw [List.getElem?_eq_none, List.getElem?_eq_none]
  · rw [length_bitsOf]
    simp only [List.length_singleton]
    omega
  · change (bitsOf [0]).length ≤ k
    rw [length_bitsOf]
    simp only [List.length_singleton]
    omega

end Burst

section HeaderDigest

variable {maxTx : UInt32} {dg : DigestCfg} {buf : List UInt8} {ohs : ℕ}

lemma recvMessage_of_error {e : ParseError} (he : e ≠ .incomplete) (h : parseMessage buf maxTx dg = .error e)
    (io : List Recv) : recvMessage maxTx dg buf io = some (.error .malformed, buf, io) := by
  cases io <;> cases e <;> first | exact absurd rfl he | simp only [recvMessage, h]

theorem corrupt_header_refused_iff (hdg : dg.header = true) (hop : opHdrSize (MsgHdr.decode buf).op = some ohs)
    (hlen : 8 + ohs + 4 ≤ buf.length) (hbad : digestOk buf (8 + ohs) (buf.take (8 + ohs)) = false) :
    ((∃ e, e ≠ .incomplete ∧ parseMessage buf maxTx dg = .error e) ∧
        ∀ io, recvMessage maxTx dg buf io = some (.error .malformed, buf, io)) ↔
      (maxTx < (MsgHdr.decode buf).bodyLen ∨
        (0 < (MsgHdr.decode buf).bodyLen ∧ ¬ opAllowsBody (MsgHdr.decode buf).op) ∨
        8 + ohs + 4 + (MsgHdr.decode buf).bodyLen.toNat + dg.dataSize ≤ buf.length) := by
  have h8 : ¬ buf.length < 8 := by omega
  have hsize : dg.headerSize = 4 := by rw [DigestCfg.headerSize, if_pos hdg]
  have hparse : (∃ e, e ≠ .incomplete ∧ parseMessage buf maxTx dg = .error e) ↔
      (maxTx < (MsgHdr.decode buf).bodyLen ∨
        (0 < (MsgHdr.decode buf).bodyLen ∧ ¬ opAllowsBody (MsgHdr.decode buf).op) ∨
        8 + ohs + 4 + (MsgHdr.decode buf).bodyLen.toNat + dg.dataSize ≤ buf.length) := by
    simp only [parseMessage, if_neg h8, hop]
    by_cases hlong : maxTx < (MsgHdr.decode buf).bodyLen
    · rw [if_pos hlong]
      exact ⟨fun _ => .inl hlong, fun _ => ⟨_, by decide, rfl⟩⟩
    · rw [if_neg hlong, or_iff_right hlong]
      by_cases hbody : 0 < (MsgHdr.decode buf).bodyLen ∧ ¬ opAllowsBody (MsgHdr.decode buf).op
      · rw [if_pos hbody]
        exact ⟨fun _ => .inl hbody, fun _ => ⟨_, by decide, rfl⟩⟩
      · rw [if_neg hbody, or_iff_right hbody]
        simp only [parseBody, hsize, hdg, hbad, Bool.not_false, Bool.and_true, if_true]
        -- the digest is only compared once the message is complete
        by_cases hshort : buf.length < 8 + ohs + 4 + (MsgHdr.decode buf).bodyLen.toNat + dg.dataSize
        · rw [if_pos hshort]
          refine ⟨?_, fun hle => absurd hle (not_le.mpr hshort)⟩
          rintro ⟨e, he, heq⟩
          exact absurd (Except.error.inj heq).symm he
        · rw [if_neg hshort]
          exact ⟨fun _ => not_lt.mp hshort, fun _ => ⟨_, by decide, rfl⟩⟩
  rw [← hparse]
  refine and_iff_left_of_imp ?_
  rintro ⟨e, he, hp⟩
  exact recvMessage_of_error he hp

def corruptWrite (bodyLen : UInt32) : List UInt8 :=
  (⟨Op.write.code, 0, 1, bodyLen⟩ : MsgHdr).encode ++ List.replicate 40 0 ++ [0, 0, 0, 0]

theorem corrupt_header_refused_whole :
    recvMessage 65536 ⟨true, false⟩ (corruptWrite 1 ++ [9]) [] =
      some (.error .malformed, corruptWrite 1 ++ [9], []) := by
  have hcond := (@corrupt_header_refused_iff 65536 ⟨true, false⟩ (corruptWrite 1 ++ [9]) 40 rfl (by decide +kernel)
    (by decide +kernel) (by decide +kernel)).mpr (.inr (.inr (by decide +kernel)))
  exact hcond.2 []

theorem corrupt_header_waited_for :
    let buf := corruptWrite 4096
    opHdrSize (MsgHdr.decode buf).op = some 40 ∧ 8 + 40 + 4 ≤ buf.length ∧
      digestOk buf (8 + 40) (buf.take (8 + 40)) = false ∧
      parseMessage buf 65536 ⟨true, false⟩ = .error .incomplete ∧
      recvMessage 65536 ⟨true, false⟩ buf [] = none ∧
      recvMessage 65536 ⟨true, false⟩ buf [.bytes [1, 2, 3]] = none := by
  decide +kernel

end HeaderDigest

end CraftClient.Wire
