import CraftClient.Net.Server
import CraftClient.Peer.Codec
import CraftClient.Raft.Resolution

/-! A fetch over TCP: `craft_tcp_server::on_fetch_data` on one side, `CraftTcpPeer::fetch_data` on the other. -/

namespace CraftClient.Peer

open Bytes Client Net Raft Replica Wire

section Server

def descOf (j : JournalSlot) : SlotDesc :=
  ⟨.ofInt j.lsn, j.lba, j.len, if j.isEmpty || j.allZeros then 0 else .ofNat (j.data.getD []).length, j.isEmpty,
    j.allZeros⟩

def dataOf (j : JournalSlot) : List UInt8 := if j.isEmpty || j.allZeros then [] else j.data.getD []

def fetchBody (slots : List JournalSlot) : List UInt8 :=
  slots.flatMap (fun j => (descOf j).encode) ++ slots.flatMap dataOf

def encodeCount (count : ℕ) : List UInt8 := encodeU32 (.ofNat count) ++ encodeU32 0

def onFetchData (r : MemReplica) (m : Message) : Reply :=
  match decodeLsns m.body (decodeU32 m.opHeader 0).toNat with
  | none => ⟨.fetchDataRsp, Wire.invalidArgument, encodeCount 0, []⟩
  | some lsns =>
    let slots := doFetch r (lsns.map Int64.toInt)
    ⟨.fetchDataRsp, Wire.ok, encodeCount slots.length, fetchBody slots⟩

end Server

section Client

/-- `lengthError` is thrown out of the call by the constructor of a vector, not returned. -/
inductive PeerFailure
  | error (e : ErrorCond)
  | lengthError
  deriving DecidableEq

def internalError : PeerFailure := .error (.craft .internal)

def kMaxVector : UInt64 := 9223372036854775807

/-- The loop of `fetch_data` over a body of `size` bytes, with where the payload of each slot is taken from.
`descs` is the body from the next descriptor on. -/
def fetchLoop (size : UInt64) :
    ℕ → List UInt8 → UInt64 → Except PeerFailure (List (SlotDesc × Option (UInt64 × UInt64)))
  | 0, _, _ => .ok []
  | k + 1, descs, dataOff =>
    if descs.length < 32 then .error internalError
    else
      let sd := SlotDesc.decode descs
      if sd.hasData then
        if size < dataOff + sd.byteLen then .error internalError
        else if kMaxVector < sd.byteLen then .error .lengthError
        else (fetchLoop size k (descs.drop 32) (dataOff + sd.byteLen)).map
          ((sd, some (dataOff, sd.byteLen)) :: ·)
      else (fetchLoop size k (descs.drop 32) dataOff).map ((sd, none) :: ·)

def fetchSlots (opHeader body : List UInt8) : Except PeerFailure (List (SlotDesc × Option (UInt64 × UInt64))) :=
  let slotCount := decodeU32 opHeader 0
  let size := UInt64.ofNat body.length
  let descBytes := slotCount.toUInt64 * 32
  if size < descBytes then .error internalError else fetchLoop size slotCount.toNat body descBytes

def toSlot (body : List UInt8) (s : SlotDesc × Option (UInt64 × UInt64)) : JournalSlot :=
  ⟨s.1.lsn.toInt, s.1.isEmpty, s.1.allZeros, s.1.lba, s.1.len, s.2.map fun p => slice body p.1.toNat p.2.toNat⟩

def fetchRequest (lsns : List Int64) (requestId : UInt16) : List UInt8 :=
  frameMessage .fetchData 0 requestId (encodeCount lsns.length) (lsns.flatMap fun l => encodeU64 l.toUInt64) {}

def takeReply (reply : List UInt8) : Except PeerFailure (List JournalSlot) :=
  match parseMessage reply kDefaultMaxTx {} with
  | .error _ => .error (.error (netToError .malformed))
  | .ok m =>
    if m.hdr.status ≠ Wire.ok then .error internalError
    else (fetchSlots m.opHeader m.body).map (List.map (toSlot m.body))

/-- A fetch on a sound connection to a server of the geometry `maxTx`, which hangs up on what it cannot parse. -/
def tcpFetch (r : MemReplica) (maxTx : UInt32) (lsns : List Int64) (requestId : UInt16) :
    Except PeerFailure (List JournalSlot) :=
  match parseMessage (fetchRequest lsns requestId) maxTx {} with
  | .error _ => .error (.error (netToError .closed))
  | .ok m => takeReply ((onFetchData r m).bytes m.hdr.requestId)

end Client

section Bounds

def exactLoop (size : ℕ) : ℕ → List UInt8 → ℕ → Except PeerFailure (List (SlotDesc × Option (ℕ × ℕ)))
  | 0, _, _ => .ok []
  | k + 1, descs, dataOff =>
    if descs.length < 32 then .error internalError
    else
      let sd := SlotDesc.decode descs
      if sd.hasData then
        if size < dataOff + sd.byteLen.toNat then .error internalError
        else (exactLoop size k (descs.drop 32) (dataOff + sd.byteLen.toNat)).map
          ((sd, some (dataOff, sd.byteLen.toNat)) :: ·)
      else (exactLoop size k (descs.drop 32) dataOff).map ((sd, none) :: ·)

def exactSlots (opHeader body : List UInt8) : Except PeerFailure (List (SlotDesc × Option (ℕ × ℕ))) :=
  let slotCount := (decodeU32 opHeader 0).toNat
  if body.length < slotCount * 32 then .error internalError
  else exactLoop body.length slotCount body (slotCount * 32)

def descAt (body : List UInt8) (i : ℕ) : SlotDesc := .decode (body.drop (i * 32))

def exactSpan (s : SlotDesc × Option (UInt64 × UInt64)) : SlotDesc × Option (ℕ × ℕ) :=
  (s.1, s.2.map fun p => (p.1.toNat, p.2.toNat))

/-- The payloads that the loop has taken when it ends, also where it ends in a failure. -/
def payloadReads (size : UInt64) : ℕ → List UInt8 → UInt64 → List (UInt64 × UInt64)
  | 0, _, _ => []
  | k + 1, descs, dataOff =>
    if descs.length < 32 then []
    else
      let sd := SlotDesc.decode descs
      if sd.hasData then
        if size < dataOff + sd.byteLen ∨ kMaxVector < sd.byteLen then []
        else (dataOff, sd.byteLen) :: payloadReads size k (descs.drop 32) (dataOff + sd.byteLen)
      else payloadReads size k (descs.drop 32) dataOff

def fetchReads (m : Message) : List (UInt64 × UInt64) :=
  let slotCount := decodeU32 m.opHeader 0
  let size := UInt64.ofNat m.body.length
  let descBytes := slotCount.toUInt64 * 32
  if m.hdr.status ≠ Wire.ok then []
  else if size < descBytes then []
  else (0, descBytes) :: payloadReads size slotCount.toNat m.body descBytes

def payloadLen (sd : SlotDesc) : ℕ := if sd.hasData then sd.byteLen.toNat else 0

def payloadOff (descs : List UInt8) (start i : ℕ) : ℕ := start + ∑ j ∈ Finset.range i, payloadLen (descAt descs j)

/-- A payload that begins within the first `size` bytes ends below `2 ^ 64`. -/
def SumsInRange (size k : ℕ) (descs : List UInt8) (start : ℕ) : Prop :=
  ∀ i < k, payloadOff descs start i ≤ size → payloadOff descs start i + payloadLen (descAt descs i) < 2 ^ 64

variable {size off : UInt64} {k : ℕ} {descs body opHeader : List UInt8}

lemma descAt_succ (descs : List UInt8) (i : ℕ) : descAt descs (i + 1) = descAt (descs.drop 32) i := by
  rw [descAt, descAt, List.drop_drop, Nat.succ_mul, Nat.add_comm]

lemma payloadOff_succ (descs : List UInt8) (start i : ℕ) :
    payloadOff descs start (i + 1) = payloadOff (descs.drop 32) (start + payloadLen (.decode descs)) i := by
  have hzero : descAt descs 0 = .decode descs := rfl
  rw [payloadOff, payloadOff, Finset.sum_range_succ', hzero]
  simp only [descAt_succ]
  omega

lemma sumsInRange_succ {size start : ℕ} : SumsInRange size (k + 1) descs start ↔
    (start ≤ size → start + payloadLen (.decode descs) < 2 ^ 64) ∧
      SumsInRange size k (descs.drop 32) (start + payloadLen (.decode descs)) := by
  rw [SumsInRange, Nat.forall_lt_succ_left]
  simp only [payloadOff_succ, descAt_succ]
  rfl

lemma sumsInRange_of_lt {size start : ℕ} (h : size < start) : SumsInRange size k descs start := by
  intro i _ hle
  rw [payloadOff] at hle
  omega

lemma map_cons_eq_iff {α β ε : Type} {f : α → β} {a : α} {x : Except ε (List α)} {y : Except ε (List β)} :
    (x.map (a :: ·)).map (List.map f) = y.map (f a :: ·) ↔ x.map (List.map f) = y := by
  cases x <;> cases y <;> simp [Except.map]

lemma toNat_payloadEnd (len : UInt64) (hsize : size.toNat < 2 ^ 32) (hoff : off.toNat ≤ size.toNat) :
    (off + len).toNat = off.toNat + len.toNat ∧ off.toNat + len.toNat < 2 ^ 64 ∧
        (¬ size < off + len → ¬ kMaxVector < len) ∨
      ¬ size < off + len ∧ kMaxVector < len ∧ 2 ^ 64 ≤ off.toNat + len.toNat := by
  have hlen := len.toNat_lt
  have htop : kMaxVector.toNat = 9223372036854775807 := rfl
  simp only [UInt64.lt_iff_toNat_lt, htop, UInt64.toNat_add]
  omega

lemma fetchLoop_eq_iff (hsize : size.toNat < 2 ^ 32) (hoff : off.toNat ≤ size.toNat) (hlen : k * 32 ≤ descs.length) :
    (fetchLoop size k descs off).map (List.map exactSpan) = exactLoop size.toNat k descs off.toNat ↔
      SumsInRange size.toNat k descs off.toNat := by
  induction k generalizing descs off with
  | zero => exact ⟨fun _ _ hi => absurd hi (Nat.not_lt_zero _), fun _ => rfl⟩
  | succ k ih =>
    have hshort : ¬ descs.length < 32 := by omega
    have hdrop : k * 32 ≤ (descs.drop 32).length := by
      rw [List.length_drop]
      omega
    rw [fetchLoop, exactLoop, if_neg hshort, if_neg hshort, sumsInRange_succ]
    generalize SlotDesc.decode descs = sd
    by_cases hd : sd.hasData = true
    · have hspan : exactSpan (sd, some (off, sd.byteLen)) = (sd, some (off.toNat, sd.byteLen.toNat)) := rfl
      rw [payloadLen, if_pos hd]
      simp only [if_pos hd]
      rcases toNat_payloadEnd sd.byteLen hsize hoff with ⟨hadd, hlt, hthrow⟩ | ⟨hpass, hthrow, hwrap⟩
      · rw [← hadd] at hlt ⊢
        by_cases hover : size < off + sd.byteLen
        · have hgt := UInt64.lt_iff_toNat_lt.mp hover
          rw [if_pos hover, if_pos hgt]
          exact ⟨fun _ => ⟨fun _ => hlt, sumsInRange_of_lt hgt⟩, fun _ => rfl⟩
        · have hle := mt UInt64.lt_iff_toNat_lt.mpr hover
          rw [if_neg hover, if_neg hle, if_neg (hthrow hover), ← hspan, map_cons_eq_iff, ih (not_lt.mp hle) hdrop]
          exact (and_iff_right fun _ => hlt).symm
      · rw [if_neg hpass, if_pos hthrow, if_pos (by omega)]
        refine ⟨fun h => ?_, fun h => absurd (h.1 hoff) (by omega)⟩
        cases Except.error.inj h
    · have hspan : exactSpan (sd, none) = (sd, none) := rfl
      have hnone : payloadLen sd = 0 := if_neg hd
      simp only [if_neg hd, hnone, Nat.add_zero]
      rw [← hspan, map_cons_eq_iff, ih hoff hdrop]
      exact (and_iff_right fun hle => hle.trans_lt (by omega)).symm

lemma payloadReads_inside (hsize : size.toNat < 2 ^ 32) (hoff : off.toNat ≤ size.toNat) :
    ∀ p ∈ payloadReads size k descs off, p.1.toNat + p.2.toNat ≤ size.toNat := by
  induction k generalizing descs off with
  | zero => exact fun _ hp => absurd hp List.not_mem_nil
  | succ k ih =>
    simp only [payloadReads]
    generalize SlotDesc.decode descs = sd
    split_ifs with hshort hd hover
    · exact fun _ hp => absurd hp List.not_mem_nil
    · exact fun _ hp => absurd hp List.not_mem_nil
    · obtain ⟨hpass, hthrow⟩ := not_or.mp hover
      have hadd := ((toNat_payloadEnd _ hsize hoff).resolve_right fun h => hthrow h.2.1).1
      have hle := not_lt.mp (mt UInt64.lt_iff_toNat_lt.mpr hpass)
      exact List.forall_mem_cons.mpr ⟨hadd ▸ hle, ih hle⟩
    · exact ih hoff

theorem fetch_decoder_inside_iff {reply : List UInt8} {m : Message} (hm : parseMessage reply kDefaultMaxTx {} = .ok m)
    (_hop : m.hdr.op = Op.fetchDataRsp.code) :
    (∀ p ∈ fetchReads m, p.1.toNat + p.2.toNat ≤ m.body.length) ∧
      ((m.hdr.status = Wire.ok →
          (fetchSlots m.opHeader m.body).map (List.map exactSpan) = exactSlots m.opHeader m.body) ↔
        (m.hdr.status = Wire.ok → SumsInRange m.body.length (decodeU32 m.opHeader 0).toNat m.body
          ((decodeU32 m.opHeader 0).toNat * 32))) := by
  have hlt : m.body.length < 2 ^ 32 := (length_body_le hm).trans_lt kDefaultMaxTx.toNat_lt
  have hsize := toNat_size hlt
  have hmul := toNat_tableSize (decodeU32 m.opHeader 0)
  constructor
  · simp only [fetchReads]
    split_ifs with hok hshort
    · exact fun _ hp => absurd hp List.not_mem_nil
    · exact fun _ hp => absurd hp List.not_mem_nil
    · have hfits := not_lt.mp (mt UInt64.lt_iff_toNat_lt.mpr hshort)
      have hreads := @payloadReads_inside (.ofNat m.body.length) _ (decodeU32 m.opHeader 0).toNat m.body
        (by rwa [hsize]) hfits
      rw [hsize] at hreads hfits
      exact List.forall_mem_cons.mpr ⟨by rwa [UInt64.toNat_zero, Nat.zero_add], hreads⟩
  · refine imp_congr_right fun _ => ?_
    simp only [fetchSlots, exactSlots, UInt64.lt_iff_toNat_lt, hsize, hmul]
    by_cases hshort : m.body.length < (decodeU32 m.opHeader 0).toNat * 32
    · simp only [if_pos hshort]
      exact ⟨fun _ => sumsInRange_of_lt hshort, fun _ => rfl⟩
    · simp only [if_neg hshort]
      have hloop := @fetchLoop_eq_iff (.ofNat m.body.length) ((decodeU32 m.opHeader 0).toUInt64 * 32)
        (decodeU32 m.opHeader 0).toNat m.body (by rwa [hsize]) (by omega) (by omega)
      rwa [hsize, hmul] at hloop

theorem fetch_decoder_inside_oneSlot :
    let sd : SlotDesc := ⟨4, 8, 1, 3, false, false⟩
    ∃ m, parseMessage (Reply.bytes ⟨.fetchDataRsp, Wire.ok, encodeCount 1, sd.encode ++ [1, 2, 3]⟩ 1)
        kDefaultMaxTx {} = .ok m ∧ m.hdr.op = Op.fetchDataRsp.code ∧
      m.body.length = 35 ∧ fetchSlots m.opHeader m.body = .ok [(sd, some (32, 3))] ∧
      fetchReads m = [(0, 32), (32, 3)] ∧ (∀ p ∈ fetchReads m, p.1.toNat + p.2.toNat ≤ m.body.length) ∧
      (fetchSlots m.opHeader m.body).map (List.map exactSpan) = exactSlots m.opHeader m.body := by
  intro sd
  have hm : parseMessage (Reply.bytes ⟨.fetchDataRsp, Wire.ok, encodeCount 1, sd.encode ++ [1, 2, 3]⟩ 1)
      kDefaultMaxTx {} = .ok ⟨⟨20, 0, 1, 35⟩, encodeCount 1, sd.encode ++ [1, 2, 3], 51⟩ := by decide +kernel
  obtain ⟨hreads, hagree⟩ := fetch_decoder_inside_iff hm rfl
  refine ⟨_, hm, rfl, rfl, by decide +kernel, by decide +kernel, hreads, hagree.mpr (fun _ => ?_) rfl⟩
  have hone : (decodeU32 (encodeCount 1) 0).toNat = 1 := by decide +kernel
  simp only [hone]
  exact sumsInRange_succ.mpr ⟨by decide +kernel, fun i hi => absurd hi (Nat.not_lt_zero i)⟩

theorem over_long_descriptor_throws :
    let sd : SlotDesc := ⟨4, 8, 1, 18446744073709551615, false, false⟩
    ∃ m, parseMessage (Reply.bytes ⟨.fetchDataRsp, Wire.ok, encodeCount 1, sd.encode⟩ 1) kDefaultMaxTx {} = .ok m ∧
      m.hdr.op = Op.fetchDataRsp.code ∧ m.body.length = 32 ∧
      fetchSlots m.opHeader m.body = .error .lengthError ∧
      exactSlots m.opHeader m.body = .error internalError := by
  intro sd
  have hm : parseMessage (Reply.bytes ⟨.fetchDataRsp, Wire.ok, encodeCount 1, sd.encode⟩ 1)
      kDefaultMaxTx {} = .ok ⟨⟨20, 0, 1, 32⟩, encodeCount 1, sd.encode, 48⟩ := by decide +kernel
  exact ⟨_, hm, rfl, rfl, by decide +kernel, by decide +kernel⟩

end Bounds

section Faithful

variable {slots : List JournalSlot} {body : List UInt8} {size off : UInt64} {r : MemReplica} {maxTx : UInt32}
  {lsns : List Int64}

structure Whole (j : JournalSlot) : Prop where
  lsn : (Int64.ofInt j.lsn).toInt = j.lsn
  data : j.data.isSome = (!j.isEmpty && !j.allZeros)

lemma Whole.hasData {j : JournalSlot} (h : Whole j) : (descOf j).hasData = j.data.isSome := by
  rw [h.data]
  rfl

lemma Whole.toSlot_none {j : JournalSlot} (h : Whole j) (hd : j.data.isSome = false) :
    toSlot body (descOf j, none) = j := by
  obtain ⟨lsn, isEmpty, allZeros, lba, len, data⟩ := j
  obtain rfl : data = none := by simpa using hd
  simp only [toSlot, descOf, h.lsn, Option.map_none]

lemma Whole.toSlot_some {j : JournalSlot} (h : Whole j) (hd : j.data.isSome = true) {p : UInt64 × UInt64}
    (hp : slice body p.1.toNat p.2.toNat = dataOf j) : toSlot body (descOf j, some p) = j := by
  have hdata := h.data
  obtain ⟨lsn, isEmpty, allZeros, lba, len, data⟩ := j
  obtain ⟨bytes, rfl⟩ := Option.isSome_iff_exists.mp hd
  obtain ⟨rfl, rfl⟩ : isEmpty = false ∧ allZeros = false := by simpa using hdata.symm
  simp only [toSlot, descOf, h.lsn, Option.map_some, hp]
  rfl

lemma toNat_byteLen {j : JournalSlot} (h : (dataOf j).length < 2 ^ 64) :
    (descOf j).byteLen.toNat = (dataOf j).length := by
  rw [dataOf] at h ⊢
  rw [descOf]
  split_ifs at h ⊢
  · rfl
  · exact UInt64.toNat_ofNat_of_lt' h

lemma length_slotDescs (slots : List JournalSlot) :
    (slots.flatMap fun j => (descOf j).encode).length = slots.length * 32 :=
  length_flatMap_const slots fun j _ => SlotDesc.length_encode (descOf j)

lemma fetchLoop_cons (size off : UInt64) (j : JournalSlot) (slots : List JournalSlot) (more : List UInt8) :
    fetchLoop size (j :: slots).length (((j :: slots).flatMap fun j => (descOf j).encode) ++ more) off =
      if (descOf j).hasData then
        if size < off + (descOf j).byteLen then .error internalError
        else if kMaxVector < (descOf j).byteLen then .error .lengthError
        else (fetchLoop size slots.length ((slots.flatMap fun j => (descOf j).encode) ++ more)
          (off + (descOf j).byteLen)).map ((descOf j, some (off, (descOf j).byteLen)) :: ·)
      else (fetchLoop size slots.length ((slots.flatMap fun j => (descOf j).encode) ++ more) off).map
        ((descOf j, none) :: ·) := by
  have hcut : (j :: slots).flatMap (fun j => (descOf j).encode) ++ more =
      (descOf j).encode ++ ((slots.flatMap fun j => (descOf j).encode) ++ more) := by
    rw [List.flatMap_cons, List.append_assoc]
  have hshort : ¬ ((descOf j).encode ++ ((slots.flatMap fun j => (descOf j).encode) ++ more)).length < 32 := by
    rw [List.length_append, SlotDesc.length_encode]
    omega
  rw [hcut, List.length_cons, fetchLoop, if_neg hshort, SlotDesc.decode_append,
    List.drop_left' (SlotDesc.length_encode _)]

lemma dataOf_of_not_hasData {j : JournalSlot} (h : (descOf j).hasData = false) : dataOf j = [] := by
  have hnot : (!j.isEmpty && !j.allZeros) = false := h
  rw [← Bool.not_or, Bool.not_eq_false'] at hnot
  rw [dataOf, if_pos hnot]

lemma fetchLoop_encode {post more : List UInt8} (hw : ∀ j ∈ slots, Whole j) (hlt : body.length < 2 ^ 32)
    (hsize : size.toNat = body.length) (hbody : body.drop off.toNat = slots.flatMap dataOf ++ post)
    (hoff : off.toNat ≤ body.length) :
    ∃ l, fetchLoop size slots.length ((slots.flatMap fun j => (descOf j).encode) ++ more) off = .ok l ∧
      l.map (toSlot body) = slots := by
  induction slots generalizing off with
  | nil => exact ⟨[], rfl, rfl⟩
  | cons j slots ih =>
    obtain ⟨hj, hw⟩ := List.forall_mem_cons.mp hw
    rw [List.flatMap_cons, List.append_assoc] at hbody
    have hlen := congrArg List.length hbody
    rw [List.length_drop, List.length_append] at hlen
    have hbyteLen : (descOf j).byteLen.toNat = (dataOf j).length := toNat_byteLen (by omega)
    rw [fetchLoop_cons]
    cases hd : (descOf j).hasData with
    | true =>
      have hadd : (off + (descOf j).byteLen).toNat = off.toNat + (dataOf j).length := by
        rw [UInt64.toNat_add, hbyteLen, Nat.mod_eq_of_lt (by omega)]
      have hfits : ¬ size < off + (descOf j).byteLen := by
        rw [UInt64.lt_iff_toNat_lt, hadd, hsize]
        omega
      have hnext : body.drop (off + (descOf j).byteLen).toNat = slots.flatMap dataOf ++ post := by
        rw [hadd, ← List.drop_drop, hbody, List.drop_left]
      have hshort : ¬ kMaxVector < (descOf j).byteLen := by
        have htop : kMaxVector.toNat = 9223372036854775807 := rfl
        rw [UInt64.lt_iff_toNat_lt, hbyteLen, htop]
        omega
      obtain ⟨l, hl, hslots⟩ := ih hw hnext (by omega)
      refine ⟨_, by rw [if_pos rfl, if_neg hfits, if_neg hshort, hl]; rfl, ?_⟩
      rw [List.map_cons, hslots, hj.toSlot_some (hj.hasData ▸ hd)]
      rw [slice, hbody, hbyteLen, List.take_left]
    | false =>
      rw [dataOf_of_not_hasData hd, List.nil_append] at hbody
      obtain ⟨l, hl, hslots⟩ := ih hw hbody hoff
      refine ⟨_, by rw [if_neg Bool.false_ne_true, hl]; rfl, ?_⟩
      rw [List.map_cons, hslots, hj.toSlot_none (hj.hasData ▸ hd)]

lemma ok_of_map {ε α β : Type} {f : α → β} {x : Except ε α} {b : β} (h : x.map f = .ok b) : ∃ a, x = .ok a := by
  cases x with
  | error e => cases h
  | ok a => exact ⟨a, rfl⟩

lemma fetchLoop_room {l : List (SlotDesc × Option (UInt64 × UInt64))} {more : List UInt8}
    (hsmall : ∀ j ∈ slots, (dataOf j).length < 2 ^ 32) (hsize : size.toNat < 2 ^ 32) (hoff : off.toNat ≤ size.toNat)
    (h : fetchLoop size slots.length ((slots.flatMap fun j => (descOf j).encode) ++ more) off = .ok l) :
    off.toNat + (slots.flatMap dataOf).length ≤ size.toNat := by
  induction slots generalizing off l with
  | nil => simpa using hoff
  | cons j slots ih =>
    obtain ⟨hj, hsmall⟩ := List.forall_mem_cons.mp hsmall
    rw [fetchLoop_cons] at h
    rw [List.flatMap_cons, List.length_append]
    cases hd : (descOf j).hasData with
    | true =>
      have hadd : (off + (descOf j).byteLen).toNat = off.toNat + (dataOf j).length := by
        rw [UInt64.toNat_add, toNat_byteLen (by omega), Nat.mod_eq_of_lt (by omega)]
      rw [hd, if_pos rfl] at h
      split_ifs at h with hover
      rw [UInt64.lt_iff_toNat_lt] at hover
      obtain ⟨rest, hrest⟩ := ok_of_map h
      have hroom := ih hsmall (not_lt.mp hover) hrest
      omega
    | false =>
      rw [hd, if_neg Bool.false_ne_true] at h
      obtain ⟨rest, hrest⟩ := ok_of_map h
      rw [dataOf_of_not_hasData hd, List.length_nil, Nat.zero_add]
      exact ih hsmall hoff hrest

lemma decode_encodeCount {k : ℕ} (h : k < 2 ^ 32) : (decodeU32 (encodeCount k) 0).toNat = k := by
  have hslice : slice (encodeCount k) 0 4 = encodeU32 (.ofNat k) := by
    rw [encodeCount, slice, List.drop_zero]
    exact List.take_left' (length_encodeU32 _)
  rw [decodeU32, hslice, ofNat_decodeLe_encodeU32, UInt32.toNat_ofNat_of_lt' h]

lemma length_encodeCount (k : ℕ) : (encodeCount k).length = 8 := by simp [encodeCount]

lemma length_fetchBody (slots : List JournalSlot) :
    (fetchBody slots).length = slots.length * 32 + (slots.flatMap dataOf).length := by
  rw [fetchBody, List.length_append, length_slotDescs]

lemma fetchSlots_encode (hw : ∀ j ∈ slots, Whole j) (hlt : (fetchBody slots).length < 2 ^ 32) :
    ∃ l, fetchSlots (encodeCount slots.length) (fetchBody slots) = .ok l ∧
      l.map (toSlot (fetchBody slots)) = slots := by
  have hlen := length_fetchBody slots
  have hcount := decode_encodeCount (k := slots.length) (by omega)
  have hsize := toNat_size hlt
  have hmul := toNat_tableSize (decodeU32 (encodeCount slots.length) 0)
  rw [hcount] at hmul
  have hfits : ¬ UInt64.ofNat (fetchBody slots).length < (decodeU32 (encodeCount slots.length) 0).toUInt64 * 32 := by
    rw [UInt64.lt_iff_toNat_lt, hsize, hmul]
    omega
  have hdata : (fetchBody slots).drop ((decodeU32 (encodeCount slots.length) 0).toUInt64 * 32).toNat =
      slots.flatMap dataOf ++ [] := by
    rw [hmul, fetchBody, List.drop_left' (length_slotDescs slots), List.append_nil]
  simp only [fetchSlots, if_neg hfits, hcount]
  exact fetchLoop_encode hw hlt hsize hdata (by omega)

lemma takeReply_fetch (hw : ∀ j ∈ slots, Whole j) (hle : (fetchBody slots).length ≤ kDefaultMaxTx.toNat)
    (requestId : UInt16) :
    takeReply (Reply.bytes ⟨.fetchDataRsp, Wire.ok, encodeCount slots.length, fetchBody slots⟩ requestId) =
      .ok slots := by
  let out : Outgoing kDefaultMaxTx := ⟨.fetchDataRsp, Wire.ok, requestId, encodeCount slots.length, fetchBody slots,
    by rw [length_encodeCount]; rfl, fun _ => rfl, hle⟩
  have hparse : parseMessage (Reply.bytes ⟨.fetchDataRsp, Wire.ok, encodeCount slots.length, fetchBody slots⟩
      requestId) kDefaultMaxTx {} = .ok (out.message {}) := out.parseMessage_frame {}
  obtain ⟨l, hl, hslots⟩ := fetchSlots_encode hw (hle.trans_lt kDefaultMaxTx.toNat_lt)
  simp only [takeReply, hparse, Outgoing.message, Outgoing.hdr, out, hl, Except.map, hslots, ne_eq, not_true_eq_false,
    if_false]

lemma takeReply_ok {reply : List UInt8} (h : takeReply reply = .ok slots) :
    ∃ m l, parseMessage reply kDefaultMaxTx {} = .ok m ∧ m.hdr.status = Wire.ok ∧
      fetchSlots m.opHeader m.body = .ok l := by
  rw [takeReply] at h
  cases hm : parseMessage reply kDefaultMaxTx {} with
  | error e => simp [hm] at h
  | ok m =>
    simp only [hm] at h
    split_ifs at h with hok
    obtain ⟨l, hl⟩ := ok_of_map h
    exact ⟨m, l, rfl, not_not.mp hok, hl⟩

lemma length_fetchBody_le {slots' : List JournalSlot} (hsmall : ∀ j ∈ slots, (dataOf j).length < 2 ^ 32)
    (hcount : slots.length < 2 ^ 32) {requestId : UInt16}
    (h : takeReply (Reply.bytes ⟨.fetchDataRsp, Wire.ok, encodeCount slots.length, fetchBody slots⟩ requestId) =
      .ok slots') : (fetchBody slots).length ≤ kDefaultMaxTx.toNat := by
  obtain ⟨m, l, hm, -, hl⟩ := takeReply_ok h
  have hle := length_body_le hm
  have hlt : m.body.length < 2 ^ 32 := hle.trans_lt kDefaultMaxTx.toNat_lt
  obtain ⟨-, hop, k, hbody⟩ := parseMessage_frame_ok (by rw [length_encodeCount]; rfl) hm
  have hmul := toNat_tableSize (decodeU32 m.opHeader 0)
  simp only [fetchSlots] at hl
  split_ifs at hl with hshort
  rw [UInt64.lt_iff_toNat_lt, toNat_size hlt, hmul, hop, decode_encodeCount hcount] at hshort
  rw [hop, decode_encodeCount hcount] at hmul hl
  -- the front of the body that has come holds the whole table
  have htable : m.body = (slots.flatMap fun j => (descOf j).encode) ++ (slots.flatMap dataOf).take
      (k - slots.length * 32) := by
    have hk : slots.length * 32 ≤ k := by
      have hlen := List.length_take_le k (fetchBody slots)
      rw [← hbody] at hlen
      omega
    rw [hbody, fetchBody, List.take_append, List.take_of_length_le (by rwa [length_slotDescs]), length_slotDescs]
  nth_rewrite 2 [htable] at hl
  have hroom := fetchLoop_room hsmall (by rwa [toNat_size hlt]) (by rw [toNat_size hlt, hmul]; omega) hl
  rw [toNat_size hlt, hmul] at hroom
  rw [length_fetchBody]
  omega

lemma onFetchData_request (hle : lsns.length * 8 ≤ maxTx.toNat) (requestId : UInt16) :
    ∃ m, parseMessage (fetchRequest lsns requestId) maxTx {} = .ok m ∧ m.hdr.requestId = requestId ∧
      onFetchData r m = ⟨.fetchDataRsp, Wire.ok, encodeCount (doFetch r (lsns.map Int64.toInt)).length,
        fetchBody (doFetch r (lsns.map Int64.toInt))⟩ := by
  have hlt := maxTx.toNat_lt
  let out : Outgoing maxTx := ⟨.fetchData, 0, requestId, encodeCount lsns.length,
    lsns.flatMap fun l => encodeU64 l.toUInt64, by rw [length_encodeCount]; rfl, fun _ => rfl,
    (length_lsns lsns).trans_le hle⟩
  refine ⟨out.message {}, out.parseMessage_frame {}, rfl, ?_⟩
  simp only [onFetchData, Outgoing.message, out, decode_encodeCount (show lsns.length < 2 ^ 32 by omega),
    decodeLsns_encode]

lemma length_request_le {requestId : UInt16} (hlsns : lsns.length < 2 ^ 32)
    (h : tcpFetch r maxTx lsns requestId = .ok slots) : lsns.length * 8 ≤ maxTx.toNat := by
  rw [tcpFetch] at h
  cases hm : parseMessage (fetchRequest lsns requestId) maxTx {} with
  | error e => simp [hm] at h
  | ok m =>
    obtain ⟨-, hop, -⟩ := parseMessage_frame_ok (by rw [length_encodeCount]; rfl) hm
    have hle := length_body_le hm
    simp only [hm, onFetchData, hop, decode_encodeCount hlsns, decodeLsns] at h
    by_cases hshort : m.body.length < lsns.length * 8
    · rw [if_pos hshort] at h
      obtain ⟨m', l, hm', hok, -⟩ := takeReply_ok h
      obtain ⟨hhdr, -⟩ := parseMessage_frame_ok (by rw [length_encodeCount]; rfl) hm'
      rw [hhdr] at hok
      exact absurd hok (show invalidArgument ≠ Wire.ok by decide)
    · omega

def Accepted (maxTx : UInt32) (d : ℤ) (s : MemJournalSlot) : Prop :=
  ∃ (q : MemReplica) (hdr : ClientHdr) (addr len : UInt64) (bytes : Option (List UInt8)) (out : LsnPair × MemReplica),
    q.doWrite hdr d addr len bytes = .ok out ∧ s = q.writeSlot hdr addr len bytes ∧
      ∀ b ∈ bytes, b.length ≤ maxTx.toNat

lemma whole_doFetch (h : ∀ d s, r.journal.find d = some s → Accepted maxTx d s) :
    ∀ j ∈ doFetch r (lsns.map Int64.toInt), Whole j := by
  intro j hj
  obtain ⟨z, hz, hfind⟩ := List.mem_filterMap.mp hj
  obtain ⟨l, -, rfl⟩ := List.mem_map.mp hz
  obtain ⟨s, hs, rfl⟩ := Option.map_eq_some_iff.mp hfind
  obtain ⟨q, hdr, addr, len, bytes, out, -, rfl, -⟩ := h _ _ hs
  refine ⟨congrArg Int64.toInt (Int64.ofInt_toInt l), ?_⟩
  cases bytes <;> rfl

lemma length_dataOf_le (h : ∀ d s, r.journal.find d = some s → Accepted maxTx d s) :
    ∀ j ∈ doFetch r (lsns.map Int64.toInt), (dataOf j).length ≤ maxTx.toNat := by
  intro j hj
  obtain ⟨z, -, hfind⟩ := List.mem_filterMap.mp hj
  obtain ⟨s, hs, rfl⟩ := Option.map_eq_some_iff.mp hfind
  obtain ⟨q, hdr, addr, len, bytes, out, -, rfl, hle⟩ := h _ _ hs
  cases bytes with
  | none => exact Nat.zero_le _
  | some b => exact hle b rfl

theorem tcp_fetch_faithful_iff (h : ∀ d s, r.journal.find d = some s → Accepted maxTx d s) (requestId : UInt16) :
    (lsns.length * 8 ≤ maxTx.toNat ∧
        (fetchBody (doFetch r (lsns.map Int64.toInt))).length ≤ kDefaultMaxTx.toNat →
      tcpFetch r maxTx lsns requestId = .ok (doFetch r (lsns.map Int64.toInt))) ∧
    (lsns.length < 2 ^ 32 → tcpFetch r maxTx lsns requestId = .ok (doFetch r (lsns.map Int64.toInt)) →
      lsns.length * 8 ≤ maxTx.toNat ∧
        (fetchBody (doFetch r (lsns.map Int64.toInt))).length ≤ kDefaultMaxTx.toNat) := by
  constructor
  · rintro ⟨hreq, hrsp⟩
    obtain ⟨m, hparse, hid, hreply⟩ := onFetchData_request (r := r) hreq requestId
    simp only [tcpFetch, hparse, hreply, hid]
    exact takeReply_fetch (whole_doFetch h) hrsp requestId
  · intro hlsns hok
    have hreq := length_request_le hlsns hok
    obtain ⟨m, hparse, hid, hreply⟩ := onFetchData_request (r := r) hreq requestId
    simp only [tcpFetch, hparse, hreply, hid] at hok
    have hcount : (doFetch r (lsns.map Int64.toInt)).length < 2 ^ 32 :=
      (List.length_filterMap_le _ _).trans_lt (by rwa [List.length_map])
    exact ⟨hreq, length_fetchBody_le (fun j hj => (length_dataOf_le h j hj).trans_lt maxTx.toNat_lt) hcount hok⟩

def fresh (pageSize : UInt32) : MemReplica := { MemReplica.new pageSize with term := 1 }

def withSlot (pageSize : UInt32) (bytes : List UInt8) : MemReplica :=
  (fresh pageSize).append 0
    ((fresh pageSize).writeSlot ⟨1, -1, -1, 7⟩ 0 (.ofNat bytes.length) (some bytes))

lemma accepted_withSlot {pageSize : UInt32} {bytes : List UInt8} {d : ℤ} {s : MemJournalSlot}
    (hm : (fresh pageSize).misaligned 0 (.ofNat bytes.length) = false) (hle : bytes.length ≤ maxTx.toNat)
    (hs : (withSlot pageSize bytes).journal.find d = some s) : Accepted maxTx d s := by
  have hlt := maxTx.toNat_lt
  simp only [withSlot, MemReplica.append, OrdMap.find_insert] at hs
  split_ifs at hs with hd
  · cases hs
    subst hd
    have hbytes : (some bytes).any (fun b => b.length ≠ (UInt64.ofNat bytes.length).toNat) = false := by
      rw [UInt64.toNat_ofNat_of_lt' (show bytes.length < 2 ^ 64 by omega)]
      simp
    have hok : ∃ out, (fresh pageSize).doWrite ⟨1, -1, -1, 7⟩ 0 0 (.ofNat bytes.length) (some bytes) = .ok out := by
      rw [MemReplica.doWrite, hm, hbytes, if_neg Bool.false_ne_true, if_neg Bool.false_ne_true,
        if_neg (fun h => h rfl)]
      exact ⟨_, rfl⟩
    obtain ⟨out, hok⟩ := hok
    refine ⟨fresh pageSize, ⟨1, -1, -1, 7⟩, 0, .ofNat bytes.length, some bytes, out, hok, rfl, fun b hb => ?_⟩
    cases hb
    exact hle
  · cases hs

lemma doFetch_withSlot (pageSize : UInt32) (bytes : List UInt8) :
    doFetch (withSlot pageSize bytes) [0] =
      [⟨0, false, false, 0 / pageSize.toUInt64, (UInt64.ofNat bytes.length / pageSize.toUInt64).toUInt32,
        some bytes⟩] := by
  rfl

theorem tcp_fetch_faithful_twoBytes :
    (∀ d s, (withSlot 2 [1, 2]).journal.find d = some s → Accepted 4096 d s) ∧
      doFetch (withSlot 2 [1, 2]) [0, 5] = [⟨0, false, false, 0, 1, some [1, 2]⟩] ∧
      tcpFetch (withSlot 2 [1, 2]) 4096 [0, 5] 9 = .ok (doFetch (withSlot 2 [1, 2]) [0, 5]) := by
  have h : ∀ d s, (withSlot 2 [1, 2]).journal.find d = some s → Accepted 4096 d s :=
    fun d s hs => accepted_withSlot (by decide +kernel) (by decide) hs
  exact ⟨h, by decide +kernel, (tcp_fetch_faithful_iff h 9).1 ⟨by decide, by decide +kernel⟩⟩

theorem full_size_slot_not_fetched :
    ∃ r : MemReplica, (∀ d s, r.journal.find d = some s → Accepted kDefaultMaxTx d s) ∧
      (∃ j, doFetch r [0] = [j] ∧ j.data = some (List.replicate 524288 1)) ∧
      tcpFetch r kDefaultMaxTx [0] 1 = .error (.error .timedOut) := by
  have hlen : (List.replicate 524288 (1 : UInt8)).length = 524288 := List.length_replicate
  generalize List.replicate 524288 (1 : UInt8) = bytes at hlen
  have hfetch := doFetch_withSlot 4096 bytes
  refine ⟨withSlot 4096 bytes, fun d s hs => accepted_withSlot ?_ hlen.le hs, ⟨_, hfetch, rfl⟩, ?_⟩
  · rw [hlen]
    decide +kernel
  · obtain ⟨m, hparse, hid, hreply⟩ := @onFetchData_request (withSlot 4096 bytes) kDefaultMaxTx [0] (by decide) 1
    have hslots : doFetch (withSlot 4096 bytes) ([0].map Int64.toInt) = doFetch (withSlot 4096 bytes) [0] := rfl
    have hbody : (fetchBody (doFetch (withSlot 4096 bytes) [0])).length = 524320 := by
      have hdata : ∀ j : JournalSlot, dataOf j = bytes → (fetchBody [j]).length = 524320 := by
        intro j hj
        rw [length_fetchBody, List.flatMap_singleton, hj, hlen, List.length_singleton]
      rw [hfetch]
      exact hdata _ rfl
    rw [hslots] at hreply
    simp only [tcpFetch, hparse, hreply, hid, takeReply, Reply.bytes]
    rw [parseMessage_too_long]
    · rfl
    · rw [hbody]
      decide
    · rw [hbody]
      decide

end Faithful

end CraftClient.Peer
