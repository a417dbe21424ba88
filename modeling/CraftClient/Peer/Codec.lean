import CraftClient.Wire.Codec

/-! The answer to a fetch as flat bytes: a count, one descriptor a slot, then the payloads. -/

namespace CraftClient.Peer

open Bytes Wire

section Descriptor

structure SlotDesc where
  lsn : Int64
  lba : UInt64
  len : UInt32
  byteLen : UInt64
  isEmpty : Bool
  allZeros : Bool
  deriving DecidableEq

namespace SlotDesc

def hasData (d : SlotDesc) : Bool := !d.isEmpty && !d.allZeros

def encode (d : SlotDesc) : List UInt8 :=
  List.flatten [encodeU64 d.lsn.toUInt64, encodeU64 d.lba, encodeU32 d.len, encodeU64 d.byteLen,
    [if d.isEmpty then 1 else 0, if d.allZeros then 1 else 0], List.replicate 2 0]

def decode (buf : List UInt8) : SlotDesc :=
  ⟨(decodeU64 buf 0).toInt64, decodeU64 buf 8, decodeU32 buf 16, decodeU64 buf 20, buf.getD 28 0 ≠ 0,
    buf.getD 29 0 ≠ 0⟩

@[simp] lemma length_encode (d : SlotDesc) : d.encode.length = 32 := by simp [encode]

lemma decode_append (d : SlotDesc) (more : List UInt8) : decode (d.encode ++ more) = d := by
  have h₁ : slice (d.encode ++ more) 0 8 = encodeU64 d.lsn.toUInt64 := by
    rw [encode, List.flatten_cons, slice, List.drop_zero, List.append_assoc]
    exact List.take_left' (length_encodeU64 _)
  have h₂ : slice (d.encode ++ more) 8 8 = encodeU64 d.lba := by
    rw [encode, List.flatten_cons, List.flatten_cons, slice, List.append_assoc,
      List.drop_left' (length_encodeU64 _), List.append_assoc]
    exact List.take_left' (length_encodeU64 _)
  have h₃ : slice (d.encode ++ more) 16 4 = encodeU32 d.len := by
    rw [encode, List.flatten_cons, List.flatten_cons, List.flatten_cons, ← List.append_assoc, List.append_assoc,
      slice, List.drop_left' (by simp), List.append_assoc]
    exact List.take_left' (length_encodeU32 _)
  have h₄ : slice (d.encode ++ more) 20 8 = encodeU64 d.byteLen := by
    rw [encode, List.flatten_cons, List.flatten_cons, List.flatten_cons, List.flatten_cons, ← List.append_assoc,
      ← List.append_assoc, List.append_assoc, slice, List.drop_left' (by simp), List.append_assoc]
    exact List.take_left' (length_encodeU64 _)
  have h₅ : (d.encode ++ more).getD 28 0 = if d.isEmpty then 1 else 0 := by
    simp [encode, List.getElem?_append]
  have h₆ : (d.encode ++ more).getD 29 0 = if d.allZeros then 1 else 0 := by
    simp [encode, List.getElem?_append]
  rw [decode, decodeU64, decodeU64, decodeU32, decodeU64, h₁, h₂, h₃, h₄, h₅, h₆, ofNat_decodeLe_encodeU64,
    ofNat_decodeLe_encodeU64, ofNat_decodeLe_encodeU32, ofNat_decodeLe_encodeU64]
  cases d with
  | mk lsn lba len byteLen isEmpty allZeros => cases isEmpty <;> cases allZeros <;> simp

end SlotDesc

end Descriptor

section Encode

structure SgSlot where
  lsn : Int64
  isEmpty : Bool
  allZeros : Bool
  lba : UInt64
  len : UInt32
  iovs : List (List UInt8)

namespace SgSlot

variable (s : SgSlot)

def hasData : Bool := !s.isEmpty && !s.allZeros

def dataSize : UInt64 := if s.hasData then s.iovs.foldl (fun n iov => n + .ofNat iov.length) 0 else 0

def desc : SlotDesc := ⟨s.lsn, s.lba, s.len, s.dataSize, s.isEmpty, s.allZeros⟩

def payload : List UInt8 := if s.hasData then s.iovs.flatten else []

end SgSlot

structure FetchDataRspEncoded where
  header : List UInt8
  dataBlobs : List (List UInt8)

def blobOver (bytes : List UInt8) : List UInt8 := bytes.take (UInt32.ofNat bytes.length).toNat

def FetchDataRspEncoded.blobs (e : FetchDataRspEncoded) : List (List UInt8) := blobOver e.header :: e.dataBlobs

def encodeFetchDataRsp (slots : List SgSlot) : FetchDataRspEncoded where
  header := encodeU32 (.ofNat slots.length) ++ encodeU32 0 ++ slots.flatMap fun s => s.desc.encode
  dataBlobs := slots.flatMap fun s => if s.hasData then s.iovs.map blobOver else []

def encodedSize (slots : List SgSlot) : ℕ := 8 + slots.length * 32 + (slots.flatMap SgSlot.payload).length

lemma blobOver_eq {bytes : List UInt8} (h : bytes.length < 2 ^ 32) : blobOver bytes = bytes := by
  rw [blobOver, UInt32.toNat_ofNat_of_lt' h, List.take_length]

lemma length_descs (slots : List SgSlot) : (slots.flatMap fun s => s.desc.encode).length = slots.length * 32 :=
  length_flatMap_const slots fun s _ => SlotDesc.length_encode s.desc

lemma length_payload_le {slots : List SgSlot} {s : SgSlot} (h : s ∈ slots) :
    s.payload.length ≤ (slots.flatMap SgSlot.payload).length := by
  induction slots with
  | nil => cases h
  | cons t slots ih =>
    rw [List.flatMap_cons, List.length_append]
    rcases List.mem_cons.mp h with rfl | h
    · exact Nat.le_add_right _ _
    · exact (ih h).trans (Nat.le_add_left _ _)

lemma length_iov_le {iovs : List (List UInt8)} {iov : List UInt8} (h : iov ∈ iovs) :
    iov.length ≤ iovs.flatten.length := by
  rw [List.length_flatten]
  exact List.single_le_sum (fun _ _ => Nat.zero_le _) _ (List.mem_map_of_mem h)

lemma blobs_flatten {slots : List SgSlot} (h : encodedSize slots < 2 ^ 32) :
    (encodeFetchDataRsp slots).blobs.flatten =
      (encodeFetchDataRsp slots).header ++ slots.flatMap SgSlot.payload := by
  rw [encodedSize] at h
  rw [FetchDataRspEncoded.blobs, List.flatten_cons]
  congr 1
  · apply blobOver_eq
    rw [encodeFetchDataRsp, List.length_append, List.length_append, length_encodeU32, length_encodeU32, length_descs]
    omega
  · simp only [encodeFetchDataRsp, List.flatMap_def, List.flatten_flatten, List.map_map]
    congr 1
    apply List.map_congr_left
    intro s hs
    simp only [Function.comp_apply, SgSlot.payload]
    split_ifs with hd
    · congr 1
      have hle := length_payload_le hs
      rw [SgSlot.payload, if_pos hd] at hle
      refine (List.map_congr_left fun iov hiov => blobOver_eq ?_).trans (List.map_id _)
      exact ((length_iov_le hiov).trans hle).trans_lt (by omega)
    · rfl

lemma toNat_dataSize {s : SgSlot} (h : s.payload.length < 2 ^ 64) : s.dataSize.toNat = s.payload.length := by
  have hfold : ∀ (iovs : List (List UInt8)) (n : UInt64), n.toNat + iovs.flatten.length < 2 ^ 64 →
      (iovs.foldl (fun n iov => n + .ofNat iov.length) n).toNat = n.toNat + iovs.flatten.length := by
    intro iovs
    induction iovs with
    | nil => simp
    | cons iov iovs ih =>
      intro n hn
      rw [List.flatten_cons, List.length_append] at hn ⊢
      have hiov : (UInt64.ofNat iov.length).toNat = iov.length := UInt64.toNat_ofNat_of_lt' (show _ < 2 ^ 64 by omega)
      have hadd : (n + .ofNat iov.length).toNat = n.toNat + iov.length := by
        rw [UInt64.toNat_add, hiov, Nat.mod_eq_of_lt (by omega)]
      rw [List.foldl_cons, ih _ (by omega), hadd]
      omega
  rw [SgSlot.payload] at h ⊢
  rw [SgSlot.dataSize]
  split_ifs at h ⊢
  · rw [hfold _ _ (by simpa using h)]
    simp
  · rfl

end Encode

section Decode

inductive DecodeError
  | truncated | malformed
  deriving DecidableEq, Repr

structure IoBlob where
  bytes : List UInt8
  size_lt : bytes.length < 2 ^ 32

/-- A decoded slot; `view` is the offset in the blob and the length of what its iovec borrows. -/
structure SlotView where
  lsn : Int64
  isEmpty : Bool
  allZeros : Bool
  lba : UInt64
  len : UInt32
  view : Option (UInt64 × UInt64)
  deriving DecidableEq

def SlotDesc.toView (d : SlotDesc) (view : Option (UInt64 × UInt64)) : SlotView :=
  ⟨d.lsn, d.isEmpty, d.allZeros, d.lba, d.len, view⟩

def SlotView.payload (v : SlotView) (bytes : List UInt8) : List UInt8 :=
  v.view.elim [] fun p => slice bytes p.1.toNat p.2.toNat

def decodeLoop (total : UInt64) : ℕ → List UInt8 → UInt64 → Except DecodeError (List SlotView)
  | 0, _, _ => .ok []
  | k + 1, descs, dataOffset =>
    let d := SlotDesc.decode descs
    if 0 < d.byteLen then
      if total - dataOffset < d.byteLen then .error .malformed
      else (decodeLoop total k (descs.drop 32) (dataOffset + d.byteLen)).map
        (d.toView (some (dataOffset, d.byteLen)) :: ·)
    else (decodeLoop total k (descs.drop 32) dataOffset).map (d.toView none :: ·)

def decodeFetchDataRsp (blob : IoBlob) : Except DecodeError (List SlotView) :=
  let total := UInt64.ofNat blob.bytes.length
  if total < 8 then .error .truncated
  else
    let slotCount := decodeU32 blob.bytes 0
    let descBytes := slotCount.toUInt64 * 32
    if total < 8 + descBytes then .error .truncated
    else decodeLoop total slotCount.toNat (blob.bytes.drop 8) (8 + descBytes)

variable {total off : UInt64} {bytes descs : List UInt8} {views : List SlotView} {k : ℕ}

lemma exists_of_map_ok {ε α β : Type*} {f : α → β} {x : Except ε α} {b : β} (h : x.map f = .ok b) :
    ∃ a, x = .ok a ∧ f a = b := by
  cases x with
  | error e => cases h
  | ok a => exact ⟨a, rfl, Except.ok.inj h⟩

lemma decodeLoop_views (hoff : off ≤ total) (h : decodeLoop total k descs off = .ok views) :
    (∀ v ∈ views.filterMap SlotView.view, off.toNat ≤ v.1.toNat ∧ v.1.toNat + v.2.toNat ≤ total.toNat) ∧
      (views.filterMap SlotView.view).Pairwise fun v w => v.1.toNat + v.2.toNat ≤ w.1.toNat := by
  induction k generalizing descs off views with
  | zero =>
    cases h
    exact ⟨by simp, .nil⟩
  | succ k ih =>
    rw [decodeLoop] at h
    split_ifs at h with hpos hlong
    · obtain ⟨rest, hrest, rfl⟩ := exists_of_map_ok h
      generalize (SlotDesc.decode descs).byteLen = byteLen at *
      have hle : off.toNat + byteLen.toNat ≤ total.toNat := by
        rw [UInt64.lt_iff_toNat_lt, UInt64.toNat_sub_of_le _ _ hoff] at hlong
        rw [UInt64.le_iff_toNat_le] at hoff
        omega
      have hadd : (off + byteLen).toNat = off.toNat + byteLen.toNat := by
        rw [UInt64.toNat_add, Nat.mod_eq_of_lt (hle.trans_lt total.toNat_lt)]
      obtain ⟨hin, hpair⟩ := ih (UInt64.le_iff_toNat_le.mpr (hadd.trans_le hle)) hrest
      simp only [List.filterMap_cons, SlotDesc.toView]
      refine ⟨List.forall_mem_cons.mpr ⟨⟨le_rfl, hle⟩, fun v hv => ?_⟩, List.pairwise_cons.mpr ⟨fun v hv => ?_, hpair⟩⟩
      · have hv := hin v hv
        omega
      · exact hadd.symm.trans_le (hin v hv).1
    · obtain ⟨rest, hrest, rfl⟩ := exists_of_map_ok h
      simpa only [List.filterMap_cons, SlotDesc.toView] using ih hoff hrest

structure Carries (bytes : List UInt8) (s : SgSlot) (v : SlotView) : Prop where
  lsn : v.lsn = s.lsn
  lba : v.lba = s.lba
  len : v.len = s.len
  isEmpty : v.isEmpty = s.isEmpty
  allZeros : v.allZeros = s.allZeros
  payload : s.hasData = true → v.payload bytes = s.iovs.flatten

lemma decodeLoop_encode {slots : List SgSlot} {post more : List UInt8} (hlt : bytes.length < 2 ^ 64)
    (htotal : total.toNat = bytes.length)
    (hbytes : bytes.drop off.toNat = slots.flatMap SgSlot.payload ++ post) :
    ∃ views, decodeLoop total slots.length ((slots.flatMap fun s => s.desc.encode) ++ more) off = .ok views ∧
      List.Forall₂ (Carries bytes) slots views := by
  induction slots generalizing off with
  | nil => exact ⟨[], rfl, .nil⟩
  | cons s slots ih =>
    rw [List.flatMap_cons, List.append_assoc] at hbytes
    have hlen := congrArg List.length hbytes
    rw [List.length_drop, List.length_append] at hlen
    have hsize : s.desc.byteLen.toNat = s.payload.length := toNat_dataSize (by omega)
    have hfirst : SlotDesc.decode ((s :: slots).flatMap (fun s => s.desc.encode) ++ more) = s.desc := by
      rw [List.flatMap_cons, List.append_assoc]
      exact SlotDesc.decode_append _ _
    have hdrop : ((s :: slots).flatMap (fun s => s.desc.encode) ++ more).drop 32 =
        (slots.flatMap fun s => s.desc.encode) ++ more := by
      rw [List.flatMap_cons, List.append_assoc]
      exact List.drop_left' (SlotDesc.length_encode _)
    rw [List.length_cons, decodeLoop]
    simp only [hfirst, hdrop]
    by_cases hpos : 0 < s.desc.byteLen
    · have hpos' : 0 < s.payload.length := by
        rw [UInt64.lt_iff_toNat_lt, hsize] at hpos
        exact hpos
      have hoff : off ≤ total := by
        rw [UInt64.le_iff_toNat_le]
        omega
      have hfits : ¬ total - off < s.desc.byteLen := by
        rw [UInt64.lt_iff_toNat_lt, UInt64.toNat_sub_of_le _ _ hoff]
        omega
      have hadd : (off + s.desc.byteLen).toNat = off.toNat + s.payload.length := by
        rw [UInt64.toNat_add, hsize, Nat.mod_eq_of_lt (by omega)]
      have hnext : bytes.drop (off + s.desc.byteLen).toNat = slots.flatMap SgSlot.payload ++ post := by
        rw [hadd, ← List.drop_drop, hbytes, List.drop_left]
      obtain ⟨views, hviews, hall⟩ := ih hnext
      rw [if_pos hpos, if_neg hfits, hviews]
      refine ⟨_, rfl, .cons ⟨rfl, rfl, rfl, rfl, rfl, fun hd => ?_⟩ hall⟩
      change slice bytes off.toNat s.desc.byteLen.toNat = _
      rw [slice, hbytes, hsize, List.take_left, SgSlot.payload, if_pos hd]
    · have hnil : s.payload = [] := by
        rw [UInt64.lt_iff_toNat_lt, hsize] at hpos
        exact List.eq_nil_of_length_eq_zero (Nat.eq_zero_of_not_pos hpos)
      rw [hnil, List.nil_append] at hbytes
      obtain ⟨views, hviews, hall⟩ := ih hbytes
      rw [if_neg hpos, hviews]
      refine ⟨_, rfl, .cons ⟨rfl, rfl, rfl, rfl, rfl, fun hd => ?_⟩ hall⟩
      rw [SgSlot.payload, if_pos hd] at hnil
      exact hnil.symm

lemma toNat_size {k : ℕ} (h : k < 2 ^ 32) : (UInt64.ofNat k).toNat = k :=
  UInt64.toNat_ofNat_of_lt' (show k < 2 ^ 64 by omega)

lemma toNat_tableSize (count : UInt32) : (count.toUInt64 * 32).toNat = count.toNat * 32 := by
  have hcount := count.toNat_lt
  have h32 : (32 : UInt64).toNat = 32 := rfl
  rw [UInt64.toNat_mul, UInt32.toNat_toUInt64, h32, Nat.mod_eq_of_lt (by omega)]

lemma decodeFetchDataRsp_eq (blob : IoBlob) :
    decodeFetchDataRsp blob =
      if blob.bytes.length < 8 ∨ blob.bytes.length < 8 + (decodeU32 blob.bytes 0).toNat * 32 then .error .truncated
      else decodeLoop (.ofNat blob.bytes.length) (decodeU32 blob.bytes 0).toNat (blob.bytes.drop 8)
        (.ofNat (8 + (decodeU32 blob.bytes 0).toNat * 32)) := by
  have hlt := blob.size_lt
  have hcount := (decodeU32 blob.bytes 0).toNat_lt
  have h8 : (8 : UInt64).toNat = 8 := rfl
  have hoff : 8 + (decodeU32 blob.bytes 0).toUInt64 * 32 = .ofNat (8 + (decodeU32 blob.bytes 0).toNat * 32) := by
    apply UInt64.toNat_inj.mp
    rw [UInt64.toNat_add, toNat_tableSize, h8, UInt64.toNat_ofNat_of_lt' (show _ < 2 ^ 64 by omega)]
    exact Nat.mod_eq_of_lt (by omega)
  simp only [decodeFetchDataRsp, hoff, UInt64.lt_iff_toNat_lt, toNat_size hlt, h8]
  rw [UInt64.toNat_ofNat_of_lt' (show _ < 2 ^ 64 by omega)]
  by_cases h₁ : blob.bytes.length < 8
  · rw [if_pos h₁, if_pos (Or.inl h₁)]
  · simp only [h₁, false_or, if_false]

lemma length_header (slots : List SgSlot) : (encodeFetchDataRsp slots).header.length = 8 + slots.length * 32 := by
  rw [encodeFetchDataRsp, List.length_append, List.length_append, length_encodeU32, length_encodeU32, length_descs]

lemma decode_encode {slots : List SgSlot} (h : encodedSize slots < 2 ^ 32) (blob : IoBlob)
    (hb : blob.bytes = (encodeFetchDataRsp slots).blobs.flatten) :
    ∃ views, decodeFetchDataRsp blob = .ok views ∧ List.Forall₂ (Carries blob.bytes) slots views := by
  rw [encodedSize] at h
  rw [blobs_flatten h] at hb
  have hlen : blob.bytes.length = 8 + slots.length * 32 + (slots.flatMap SgSlot.payload).length := by
    rw [hb, List.length_append, length_header]
  have hcount : (decodeU32 blob.bytes 0).toNat = slots.length := by
    have hslice : slice blob.bytes 0 4 = encodeU32 (.ofNat slots.length) := by
      rw [hb, encodeFetchDataRsp, slice, List.drop_zero]
      simp only [List.append_assoc]
      exact List.take_left' (length_encodeU32 _)
    rw [decodeU32, hslice, ofNat_decodeLe_encodeU32, UInt32.toNat_ofNat_of_lt' (show _ < 2 ^ 32 by omega)]
  have hdescs : blob.bytes.drop 8 = (slots.flatMap fun s => s.desc.encode) ++ slots.flatMap SgSlot.payload := by
    rw [hb, encodeFetchDataRsp, List.append_assoc]
    exact List.drop_left' (by simp)
  have hdata : blob.bytes.drop (UInt64.ofNat (8 + slots.length * 32)).toNat = slots.flatMap SgSlot.payload ++ [] := by
    rw [toNat_size (by omega), hb, List.drop_left' (length_header slots), List.append_nil]
  rw [decodeFetchDataRsp_eq, hcount, if_neg (by omega), hdescs]
  exact decodeLoop_encode (blob.size_lt.trans (by decide)) (toNat_size blob.size_lt) hdata

lemma decode_views {blob : IoBlob} (h : decodeFetchDataRsp blob = .ok views) :
    (∀ v ∈ views.filterMap SlotView.view, v.1.toNat + v.2.toNat ≤ blob.bytes.length) ∧
      (views.filterMap SlotView.view).Pairwise fun v w => v.1.toNat + v.2.toNat ≤ w.1.toNat := by
  have hlt := blob.size_lt
  rw [decodeFetchDataRsp_eq] at h
  split_ifs at h with hshort
  rw [not_or] at hshort
  obtain ⟨hin, hpair⟩ := decodeLoop_views (UInt64.le_iff_toNat_le.mpr (by
    rw [toNat_size hlt, toNat_size (by omega)]
    omega)) h
  rw [toNat_size hlt] at hin
  exact ⟨fun v hv => (hin v hv).2, hpair⟩

theorem fetch_rsp_codec :
    (∀ slots : List SgSlot, encodedSize slots < 2 ^ 32 → ∀ blob : IoBlob,
      blob.bytes = (encodeFetchDataRsp slots).blobs.flatten →
        ∃ views, decodeFetchDataRsp blob = .ok views ∧ List.Forall₂ (Carries blob.bytes) slots views) ∧
    ∀ blob : IoBlob, (∃ e, decodeFetchDataRsp blob = .error e) ∨
      ∃ views, decodeFetchDataRsp blob = .ok views ∧
        (∀ v ∈ views.filterMap SlotView.view, v.1.toNat + v.2.toNat ≤ blob.bytes.length) ∧
        (views.filterMap SlotView.view).Pairwise fun v w => v.1.toNat + v.2.toNat ≤ w.1.toNat := by
  refine ⟨fun slots h blob hb => decode_encode h blob hb, fun blob => ?_⟩
  cases h : decodeFetchDataRsp blob with
  | error e => exact Or.inl ⟨e, rfl⟩
  | ok views => exact Or.inr ⟨views, rfl, decode_views h⟩

theorem fetch_rsp_codec_threeSlots :
    let slots : List SgSlot := [⟨4, false, false, 8, 1, [[1, 2], [3]]⟩, ⟨-1, true, false, 0, 0, []⟩,
      ⟨6, false, true, 9, 2, []⟩]
    encodedSize slots < 2 ^ 32 ∧ ∃ blob : IoBlob, blob.bytes = (encodeFetchDataRsp slots).blobs.flatten ∧
      ∃ views, decodeFetchDataRsp blob = .ok views ∧ List.Forall₂ (Carries blob.bytes) slots views := by
  intro slots
  have hsize : encodedSize slots < 2 ^ 32 := by decide
  let blob : IoBlob := ⟨(encodeFetchDataRsp slots).blobs.flatten, by decide +kernel⟩
  exact ⟨hsize, blob, rfl, fetch_rsp_codec.1 slots hsize blob rfl⟩

end Decode

end CraftClient.Peer
