import CraftClient.Replica.Model
import CraftClient.Wire.Message

namespace CraftClient.Wire

open Bytes Replica

section Fields

def encodeU64 (n : UInt64) : List UInt8 := encodeLe 8 n.toNat

def encodeU32 (n : UInt32) : List UInt8 := encodeLe 4 n.toNat

def encodeI64 (z : ℤ) : List UInt8 := encodeLe 8 (z % 2 ^ 64).toNat

def decodeU64 (buf : List UInt8) (off : ℕ) : UInt64 := .ofNat (decodeLe (slice buf off 8))

def decodeU32 (buf : List UInt8) (off : ℕ) : UInt32 := .ofNat (decodeLe (slice buf off 4))

def decodeI64 (buf : List UInt8) (off : ℕ) : ℤ := (decodeU64 buf off).toInt64.toInt

@[simp] lemma length_encodeU64 (n : UInt64) : (encodeU64 n).length = 8 := length_encodeLe 8 _

@[simp] lemma length_encodeU32 (n : UInt32) : (encodeU32 n).length = 4 := length_encodeLe 4 _

@[simp] lemma length_encodeI64 (z : ℤ) : (encodeI64 z).length = 8 := length_encodeLe 8 _

lemma ofNat_decodeLe_encodeU64 (n : UInt64) : UInt64.ofNat (decodeLe (encodeU64 n)) = n := by
  have hlt : n.toNat < 256 ^ 8 := n.toNat_lt
  rw [encodeU64, decodeLe_encodeLe, Nat.mod_eq_of_lt hlt, UInt64.ofNat_toNat]

lemma ofNat_decodeLe_encodeU32 (n : UInt32) : UInt32.ofNat (decodeLe (encodeU32 n)) = n := by
  have hlt : n.toNat < 256 ^ 4 := n.toNat_lt
  rw [encodeU32, decodeLe_encodeLe, Nat.mod_eq_of_lt hlt, UInt32.ofNat_toNat]

end Fields

section Requests

structure ReqHdr where
  commitLsn : ℤ
  allCommittedLsn : ℤ
  deriving DecidableEq

def ReqHdr.decode (buf : List UInt8) : ReqHdr := ⟨decodeI64 buf 0, decodeI64 buf 8⟩

structure LoginReq where
  volumeId : List UInt8
  clientToken : UInt64

def LoginReq.decode (buf : List UInt8) : LoginReq := ⟨slice buf 0 16, decodeU64 buf 16⟩

structure HeloReq where
  volumeId : List UInt8
  clientToken : UInt64
  term : UInt64

def HeloReq.decode (buf : List UInt8) : HeloReq := ⟨slice buf 0 16, decodeU64 buf 16, decodeU64 buf 24⟩

structure WriteReq where
  hdr : ReqHdr
  dlsn : ℤ
  addr : UInt64
  len : UInt64

def WriteReq.decode (buf : List UInt8) : WriteReq :=
  ⟨.decode buf, decodeI64 buf 16, decodeU64 buf 24, decodeU64 buf 32⟩

structure ReadReq where
  hdr : ReqHdr
  readLsn : ℤ
  addr : UInt64
  len : UInt64

def ReadReq.decode (buf : List UInt8) : ReadReq :=
  ⟨.decode buf, decodeI64 buf 16, decodeU64 buf 24, decodeU64 buf 32⟩

structure ResolveReq where
  hdr : ReqHdr
  upto : ℤ

def ResolveReq.decode (buf : List UInt8) : ResolveReq := ⟨.decode buf, decodeI64 buf 16⟩

structure VolumeCreateReq where
  volumeId : List UInt8
  capacity : UInt64
  lbaSize : UInt32
  memberCount : UInt32

def VolumeCreateReq.decode (buf : List UInt8) : VolumeCreateReq :=
  ⟨slice buf 0 16, decodeU64 buf 16, decodeU32 buf 24, decodeU32 buf 28⟩

end Requests

section Members

structure Member where
  id : List UInt8
  addr : List UInt8
  deriving DecidableEq

def putMember (m : Member) : List UInt8 := m.id ++ encodeLe 2 m.addr.length ++ m.addr

def decodeMembers (body : List UInt8) : ℕ → Option (List Member)
  | 0 => some []
  | count + 1 =>
    let alen := decodeLe (slice body 16 2)
    if body.length < 18 ∨ body.length < 18 + alen then none
    else (decodeMembers (body.drop (18 + alen)) count).map (⟨body.take 16, slice body 18 alen⟩ :: ·)

end Members

section Responses

structure LoginRsp where
  term : UInt64
  dlsn : ℤ
  capacity : UInt64
  lbaSize : UInt32
  maxTx : UInt32
  memberCount : UInt32
  leaderHint : List UInt8

def nilId : List UInt8 := List.replicate 16 0

def LoginRsp.zero : LoginRsp := ⟨0, 0, 0, 0, 0, 0, nilId⟩

def LoginRsp.encode (r : LoginRsp) : List UInt8 :=
  List.flatten [encodeU64 r.term, encodeI64 r.dlsn, encodeU64 r.capacity, encodeU32 r.lbaSize, encodeU32 r.maxTx,
    encodeU32 r.memberCount, encodeU32 0, slice (r.leaderHint ++ nilId) 0 16]

def encodeLsns (l : LsnPair) : List UInt8 := encodeI64 l.commitLsn ++ encodeI64 l.lastAppendLsn

structure ReadRsp where
  lsns : LsnPair
  extentCount : UInt32

def ReadRsp.encode (r : ReadRsp) : List UInt8 := encodeLsns r.lsns ++ (encodeU32 r.extentCount ++ encodeU32 0)

structure ResolveRsp where
  resolvedUpto : ℤ
  emptyCount : UInt32

def ResolveRsp.encode (r : ResolveRsp) : List UInt8 :=
  encodeI64 r.resolvedUpto ++ (encodeU32 r.emptyCount ++ encodeU32 0)

@[simp] lemma LoginRsp.length_encode (r : LoginRsp) : r.encode.length = 56 := by
  have hhint : (slice (r.leaderHint ++ nilId) 0 16).length = 16 := by
    apply length_slice
    rw [List.length_append, nilId, List.length_replicate]
    omega
  simp only [encode, List.length_flatten, List.map_cons, List.map_nil, List.sum_cons, List.sum_nil,
    length_encodeU64, length_encodeI64, length_encodeU32, hhint, Nat.reduceAdd]

@[simp] lemma length_encodeLsns (l : LsnPair) : (encodeLsns l).length = 16 := by simp [encodeLsns]

@[simp] lemma ReadRsp.length_encode (r : ReadRsp) : r.encode.length = 24 := by simp [encode]

@[simp] lemma ResolveRsp.length_encode (r : ResolveRsp) : r.encode.length = 16 := by simp [encode]

end Responses

section Extents

def encodeExtent (e : IoExtent) : List UInt8 :=
  List.flatten [encodeU64 e.addr, encodeU64 e.len, [if e.hole then 1 else 0], List.replicate 7 0]

def decodeExtent (buf : List UInt8) : IoExtent := ⟨decodeU64 buf 0, decodeU64 buf 8, buf.getD 16 0 ≠ 0⟩

@[simp] lemma length_encodeExtent (e : IoExtent) : (encodeExtent e).length = 24 := by
  simp [encodeExtent]

lemma decodeExtent_append (e : IoExtent) (more : List UInt8) : decodeExtent (encodeExtent e ++ more) = e := by
  have h₁ : slice (encodeExtent e ++ more) 0 8 = encodeU64 e.addr := by
    rw [encodeExtent, List.flatten_cons, slice, List.drop_zero, List.append_assoc]
    exact List.take_left' (length_encodeU64 _)
  have h₂ : slice (encodeExtent e ++ more) 8 8 = encodeU64 e.len := by
    rw [encodeExtent, List.flatten_cons, List.flatten_cons, slice, List.append_assoc,
      List.drop_left' (length_encodeU64 _), List.append_assoc]
    exact List.take_left' (length_encodeU64 _)
  have h₃ : (encodeExtent e ++ more).getD 16 0 = if e.hole then 1 else 0 := by
    simp [encodeExtent, List.getElem?_append]
  rw [decodeExtent, decodeU64, decodeU64, h₁, h₂, h₃, ofNat_decodeLe_encodeU64, ofNat_decodeLe_encodeU64]
  cases e with
  | mk addr len hole => cases hole <;> simp

def takeExtents (body : List UInt8) : ℕ → List IoExtent
  | 0 => []
  | count + 1 => decodeExtent body :: takeExtents (body.drop 24) count

def decodeExtents (body : List UInt8) (count : ℕ) : Option (List IoExtent) :=
  if body.length < count * 24 then none else some (takeExtents body count)

lemma length_encodeExtents (layout : List IoExtent) : (layout.flatMap encodeExtent).length = layout.length * 24 :=
  length_flatMap_const layout fun e _ => length_encodeExtent e

lemma decodeExtents_encode (layout : List IoExtent) (more : List UInt8) :
    decodeExtents (layout.flatMap encodeExtent ++ more) layout.length = some layout := by
  have htake : takeExtents (layout.flatMap encodeExtent ++ more) layout.length = layout := by
    induction layout with
    | nil => rfl
    | cons e es ih =>
      rw [List.length_cons, takeExtents, List.flatMap_cons, List.append_assoc, decodeExtent_append,
        List.drop_left' (length_encodeExtent e), ih]
  rw [decodeExtents, if_neg, htake]
  rw [List.length_append, length_encodeExtents]
  omega

end Extents

section Lsns

def takeLsns (body : List UInt8) : ℕ → List Int64
  | 0 => []
  | count + 1 => (decodeU64 body 0).toInt64 :: takeLsns (body.drop 8) count

def decodeLsns (body : List UInt8) (count : ℕ) : Option (List Int64) :=
  if body.length < count * 8 then none else some (takeLsns body count)

lemma length_lsns (lsns : List Int64) : (lsns.flatMap fun l => encodeU64 l.toUInt64).length = lsns.length * 8 :=
  length_flatMap_const lsns fun l _ => length_encodeU64 l.toUInt64

lemma decodeLsns_encode (lsns : List Int64) :
    decodeLsns (lsns.flatMap fun l => encodeU64 l.toUInt64) lsns.length = some lsns := by
  have htake : takeLsns (lsns.flatMap fun l => encodeU64 l.toUInt64) lsns.length = lsns := by
    induction lsns with
    | nil => rfl
    | cons l lsns ih =>
      have hfirst : slice (encodeU64 l.toUInt64 ++ lsns.flatMap fun l => encodeU64 l.toUInt64) 0 8 =
          encodeU64 l.toUInt64 := by
        rw [slice, List.drop_zero]
        exact List.take_left' (length_encodeU64 _)
      rw [List.flatMap_cons, List.length_cons, takeLsns, List.drop_left' (length_encodeU64 _), ih, decodeU64, hfirst,
        ofNat_decodeLe_encodeU64]
      rfl
  rw [decodeLsns, if_neg, htake]
  rw [length_lsns]
  exact lt_irrefl _

end Lsns

section Bounds

def kDefaultMaxTx : UInt32 := 512 * 1024

/-- `framed_body_max`: the payload and one extent descriptor for each of its blocks, in 32 bits. -/
def framedBodyMax (payload lba : UInt32) : UInt32 :=
  let blocks := if lba = 0 then 0 else (payload + lba - 1) / lba
  payload + blocks * 24

end Bounds

end CraftClient.Wire
