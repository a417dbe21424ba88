import CraftClient.Wire.Codec

namespace CraftClient.Wire

open Bytes Replica

def InI64 (z : ℤ) : Prop := -2 ^ 63 ≤ z ∧ z < 2 ^ 63

instance decidableInI64 (z : ℤ) : Decidable (InI64 z) := inferInstanceAs (Decidable (_ ∧ _))

section Fields

variable {f rest : List UInt8} {k : ℕ}

lemma toInt_decodeLe_encodeI64 {z : ℤ} (h : InI64 z) : (UInt64.ofNat (decodeLe (encodeI64 z))).toInt64.toInt = z := by
  have hlt : (z % 2 ^ 64).toNat < 256 ^ 8 := by omega
  have hcast : ((z % 2 ^ 64).toNat : ℤ) = z % 2 ^ 64 := Int.toNat_of_nonneg (by omega)
  have hbits : (UInt64.ofNat (z % 2 ^ 64).toNat).toInt64.toBitVec = BitVec.ofNat 64 (z % 2 ^ 64).toNat := rfl
  rw [encodeI64, decodeLe_encodeLe, Nat.mod_eq_of_lt hlt, ← Int64.toInt_toBitVec, hbits,
    BitVec.toInt_eq_toNat_bmod, BitVec.toNat_ofNat, Nat.mod_eq_of_lt (b := 2 ^ 64) (by omega), hcast]
  have hmod : (z % ((2 ^ 64 : ℕ) : ℤ)).bmod (2 ^ 64) = z.bmod (2 ^ 64) := Int.emod_bmod z (2 ^ 64)
  exact hmod.trans (Int.bmod_eq_of_le (by simpa using h.1) (by simpa using h.2))

@[simp] lemma decodeU64_skip (h : f.length ≤ k) : decodeU64 (f ++ rest) k = decodeU64 rest (k - f.length) := by
  rw [decodeU64, slice_skip h, decodeU64]

@[simp] lemma decodeU32_skip (h : f.length ≤ k) : decodeU32 (f ++ rest) k = decodeU32 rest (k - f.length) := by
  rw [decodeU32, slice_skip h, decodeU32]

@[simp] lemma decodeI64_skip (h : f.length ≤ k) : decodeI64 (f ++ rest) k = decodeI64 rest (k - f.length) := by
  rw [decodeI64, decodeU64_skip h, decodeI64]

@[simp] lemma decodeU64_front (x : UInt64) : decodeU64 (encodeU64 x ++ rest) 0 = x := by
  rw [decodeU64, slice_front (length_encodeU64 x), ofNat_decodeLe_encodeU64]

@[simp] lemma decodeU64_encodeU64 (x : UInt64) : decodeU64 (encodeU64 x) 0 = x := by
  rw [← List.append_nil (encodeU64 x), decodeU64_front]

@[simp] lemma decodeU32_front (x : UInt32) : decodeU32 (encodeU32 x ++ rest) 0 = x := by
  rw [decodeU32, slice_front (length_encodeU32 x), ofNat_decodeLe_encodeU32]

@[simp] lemma decodeI64_front {z : ℤ} (h : InI64 z) : decodeI64 (encodeI64 z ++ rest) 0 = z := by
  rw [decodeI64, decodeU64, slice_front (length_encodeI64 z), toInt_decodeLe_encodeI64 h]

@[simp] lemma decodeI64_encodeI64 {z : ℤ} (h : InI64 z) : decodeI64 (encodeI64 z) 0 = z := by
  rw [← List.append_nil (encodeI64 z), decodeI64_front h]

end Fields

section Requests

def ReqHdr.fields (h : ReqHdr) : List (List UInt8) := [encodeI64 h.commitLsn, encodeI64 h.allCommittedLsn]

def ReqHdr.encode (h : ReqHdr) : List UInt8 := h.fields.flatten

def LoginReq.encode (r : LoginReq) : List UInt8 := List.flatten [r.volumeId, encodeU64 r.clientToken]

def HeloReq.encode (r : HeloReq) : List UInt8 :=
  List.flatten [r.volumeId, encodeU64 r.clientToken, encodeU64 r.term]

def WriteReq.encode (r : WriteReq) : List UInt8 :=
  (r.hdr.fields ++ [encodeI64 r.dlsn, encodeU64 r.addr, encodeU64 r.len]).flatten

def ReadReq.encode (r : ReadReq) : List UInt8 :=
  (r.hdr.fields ++ [encodeI64 r.readLsn, encodeU64 r.addr, encodeU64 r.len]).flatten

def ResolveReq.encode (r : ResolveReq) : List UInt8 := (r.hdr.fields ++ [encodeI64 r.upto]).flatten

def ReqHdr.Ranged (h : ReqHdr) : Prop := InI64 h.commitLsn ∧ InI64 h.allCommittedLsn

@[simp] lemma ReqHdr.length_encode (h : ReqHdr) : h.encode.length = 16 := by simp [encode, fields]

@[simp] lemma WriteReq.length_encode (r : WriteReq) : r.encode.length = 40 := by simp [encode, ReqHdr.fields]

@[simp] lemma ReadReq.length_encode (r : ReadReq) : r.encode.length = 40 := by simp [encode, ReqHdr.fields]

@[simp] lemma ResolveReq.length_encode (r : ResolveReq) : r.encode.length = 24 := by simp [encode, ReqHdr.fields]

lemma ReqHdr.decode_encode {h : ReqHdr} (hr : h.Ranged) : decode h.encode = h := by
  simp [decode, encode, fields, hr.1, hr.2]

lemma LoginReq.decode_encode {r : LoginReq} (hid : r.volumeId.length = 16) : decode r.encode = r := by
  simp [decode, encode, slice_front hid, hid]

lemma HeloReq.decode_encode {r : HeloReq} (hid : r.volumeId.length = 16) : decode r.encode = r := by
  simp [decode, encode, slice_front hid, hid]

lemma WriteReq.decode_encode {r : WriteReq} (hr : r.hdr.Ranged) (hd : InI64 r.dlsn) : decode r.encode = r := by
  simp [decode, encode, ReqHdr.decode, ReqHdr.fields, hr.1, hr.2, hd]

lemma ReadReq.decode_encode {r : ReadReq} (hr : r.hdr.Ranged) (hd : InI64 r.readLsn) : decode r.encode = r := by
  simp [decode, encode, ReqHdr.decode, ReqHdr.fields, hr.1, hr.2, hd]

lemma ResolveReq.decode_encode {r : ResolveReq} (hr : r.hdr.Ranged) (hd : InI64 r.upto) : decode r.encode = r := by
  simp [decode, encode, ReqHdr.decode, ReqHdr.fields, hr.1, hr.2, hd]

end Requests

section Replies

def LoginRsp.decode (buf : List UInt8) : LoginRsp :=
  ⟨decodeU64 buf 0, decodeI64 buf 8, decodeU64 buf 16, decodeU32 buf 24, decodeU32 buf 28, decodeU32 buf 32,
    slice buf 40 16⟩

def decodeLsnPair (buf : List UInt8) : LsnPair := ⟨decodeI64 buf 0, decodeI64 buf 8⟩

def ResolveRsp.decode (buf : List UInt8) : ResolveRsp := ⟨decodeI64 buf 0, decodeU32 buf 8⟩

def LsnPair.Ranged (l : LsnPair) : Prop := InI64 l.commitLsn ∧ InI64 l.lastAppendLsn

lemma LoginRsp.decode_encode {r : LoginRsp} (hd : InI64 r.dlsn) (hhint : r.leaderHint.length = 16) :
    decode r.encode = r := by
  simp [decode, encode, slice_skip, slice_front hhint, slice_self hhint, hd]

lemma decodeLsnPair_encode {l : LsnPair} (h : LsnPair.Ranged l) : decodeLsnPair (encodeLsns l) = l := by
  simp [decodeLsnPair, encodeLsns, h.1, h.2]

lemma decodeLsnPair_readRsp {r : ReadRsp} (h : LsnPair.Ranged r.lsns) : decodeLsnPair r.encode = r.lsns := by
  simp [decodeLsnPair, ReadRsp.encode, encodeLsns, h.1, h.2]

lemma ResolveRsp.decode_encode {r : ResolveRsp} (h : InI64 r.resolvedUpto) : decode r.encode = r := by
  simp [decode, encode, h]

lemma decodeLsns_encodeI64 {ds : List ℤ} (h : ∀ d ∈ ds, InI64 d) :
    (decodeLsns (ds.flatMap encodeI64) ds.length).map (List.map Int64.toInt) = some ds := by
  have hbytes : ∀ z : ℤ, encodeI64 z = encodeU64 (Int64.ofInt z).toUInt64 := by
    intro z
    have hnat : (Int64.ofInt z).toUInt64.toNat = (z % 2 ^ 64).toNat := BitVec.toNat_ofInt z
    rw [encodeI64, encodeU64, hnat]
  have hback : ∀ d ∈ ds, (Int64.ofInt d).toInt = d :=
    fun d hd => Int64.toInt_ofInt_of_le (h d hd).1 (h d hd).2
  have hflat : ds.flatMap encodeI64 = (ds.map Int64.ofInt).flatMap fun l => encodeU64 l.toUInt64 := by
    rw [List.flatMap_map]
    exact congrArg (ds.flatMap ·) (funext hbytes)
  have hlen : ds.length = (ds.map Int64.ofInt).length := (List.length_map _).symm
  rw [hflat, hlen, decodeLsns_encode, Option.map_some, List.map_map]
  exact congrArg some ((List.map_congr_left hback).trans (List.map_id ds))

end Replies

end CraftClient.Wire
