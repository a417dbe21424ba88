import CraftClient.Lib.Bytes
import CraftClient.Lib.Framing
import CraftClient.Status

/-! The message of the wire: a header of eight bytes, an operation header and a body, with the digests negotiated. -/

namespace CraftClient.Wire

open Bytes

inductive Op
  | login | loginRsp | helo | heloRsp | write | writeRsp | read | readRsp | keepalive | keepaliveRsp
  | logout | logoutRsp | resolve | resolveRsp | createVolume | createVolumeRsp
  | getRsCommitLsn | getRsCommitLsnRsp | fetchData | fetchDataRsp
  deriving DecidableEq, Repr

def Op.code : Op → UInt8
  | .login => 1
  | .loginRsp => 2
  | .helo => 3
  | .heloRsp => 4
  | .write => 5
  | .writeRsp => 6
  | .read => 7
  | .readRsp => 8
  | .keepalive => 9
  | .keepaliveRsp => 10
  | .logout => 11
  | .logoutRsp => 12
  | .resolve => 13
  | .resolveRsp => 14
  | .createVolume => 15
  | .createVolumeRsp => 16
  | .getRsCommitLsn => 17
  | .getRsCommitLsnRsp => 18
  | .fetchData => 19
  | .fetchDataRsp => 20

def kMaxOp : UInt8 := 20

def opHdrSizes : List ℕ := [0, 24, 56, 32, 0, 40, 16, 40, 24, 16, 16, 16, 0, 24, 16, 32, 0, 16, 16, 8, 8]

def opHdrSize (code : UInt8) : Option ℕ := if code < 1 ∨ kMaxOp < code then none else opHdrSizes[code.toNat]?

def opAllowsBody (code : UInt8) : Bool :=
  code == Op.write.code || code == Op.loginRsp.code || code == Op.readRsp.code || code == Op.resolveRsp.code ||
    code == Op.createVolume.code || code == Op.fetchData.code || code == Op.fetchDataRsp.code

section Digest

def crc32cBit (c : UInt32) : UInt32 := if c &&& 1 ≠ 0 then (0x82F63B78 : UInt32) ^^^ (c >>> 1) else c >>> 1

def crc32cTable : List UInt32 := (List.range 256).map fun i => Nat.repeat crc32cBit 8 (.ofNat i)

def crc32c (data : List UInt8) : UInt32 :=
  ~~~ data.foldl (fun crc b => crc32cTable.getD ((crc ^^^ b.toUInt32) &&& 0xFF).toNat 0 ^^^ (crc >>> 8)) (~~~ 0)

structure DigestCfg where
  header : Bool := false
  data : Bool := false
  deriving DecidableEq, Repr

def DigestCfg.headerSize (dg : DigestCfg) : ℕ := if dg.header then 4 else 0

def DigestCfg.dataSize (dg : DigestCfg) : ℕ := if dg.data then 4 else 0

end Digest

structure MsgHdr where
  op : UInt8
  status : UInt8
  requestId : UInt16
  bodyLen : UInt32
  deriving DecidableEq, Repr

namespace MsgHdr

def encode (h : MsgHdr) : List UInt8 :=
  [h.op, h.status] ++ encodeLe 2 h.requestId.toNat ++ encodeLe 4 h.bodyLen.toNat

def decode (buf : List UInt8) : MsgHdr where
  op := buf.getD 0 0
  status := buf.getD 1 0
  requestId := .ofNat (decodeLe (slice buf 2 2))
  bodyLen := .ofNat (decodeLe (slice buf 4 4))

@[simp] lemma length_encode (h : MsgHdr) : h.encode.length = 8 := by simp [encode]

lemma decode_append {buf : List UInt8} (h : 8 ≤ buf.length) (more : List UInt8) :
    decode (buf ++ more) = decode buf := by
  have hget : ∀ i < 8, (buf ++ more).getD i 0 = buf.getD i 0 := by
    intro i hi
    rw [List.getD_eq_getElem?_getD, List.getElem?_append_left (by omega), List.getD_eq_getElem?_getD]
  rw [decode, decode, hget 0 (by omega), hget 1 (by omega), slice_append (by omega), slice_append (by omega)]

lemma decode_encode (h : MsgHdr) : decode h.encode = h := by
  have hr : slice h.encode 2 2 = encodeLe 2 h.requestId.toNat := rfl
  have hb : slice h.encode 4 4 = encodeLe 4 h.bodyLen.toNat := rfl
  have hlt₁ : h.requestId.toNat < 256 ^ 2 := h.requestId.toNat_lt
  have hlt₂ : h.bodyLen.toNat < 256 ^ 4 := h.bodyLen.toNat_lt
  rw [decode, hr, hb, decodeLe_encodeLe, decodeLe_encodeLe, Nat.mod_eq_of_lt hlt₁, Nat.mod_eq_of_lt hlt₂,
    UInt16.ofNat_toNat, UInt32.ofNat_toNat]
  rfl

end MsgHdr

inductive ParseError
  | incomplete | unknownOp | badLength | badDigest
  deriving DecidableEq, Repr

structure Message where
  hdr : MsgHdr
  opHeader : List UInt8
  body : List UInt8
  total : ℕ
  deriving DecidableEq, Repr

def digestOk (buf : List UInt8) (pos : ℕ) (data : List UInt8) : Bool :=
  decodeLe (slice buf pos 4) == (crc32c data).toNat

def parseBody (buf : List UInt8) (dg : DigestCfg) (hdr : MsgHdr) (ohs : ℕ) : Except ParseError Message :=
  let hdrEnd := 8 + ohs
  let bodyStart := hdrEnd + dg.headerSize
  let bodyEnd := bodyStart + hdr.bodyLen.toNat
  let total := bodyEnd + dg.dataSize
  if buf.length < total then .error .incomplete
  else if dg.header && !digestOk buf hdrEnd (buf.take hdrEnd) then .error .badDigest
  else if dg.data && !digestOk buf bodyEnd (slice buf bodyStart hdr.bodyLen.toNat) then .error .badDigest
  else .ok ⟨hdr, slice buf 8 ohs, slice buf bodyStart hdr.bodyLen.toNat, total⟩

def parseMessage (buf : List UInt8) (maxTx : UInt32) (dg : DigestCfg) : Except ParseError Message :=
  if buf.length < 8 then .error .incomplete
  else
    let hdr := MsgHdr.decode buf
    match opHdrSize hdr.op with
    | none => .error .unknownOp
    | some ohs =>
      if maxTx < hdr.bodyLen then .error .badLength
      else if 0 < hdr.bodyLen ∧ ¬ opAllowsBody hdr.op then .error .badLength
      else parseBody buf dg hdr ohs

def frameMessage (op : Op) (status : UInt8) (requestId : UInt16) (opHeader body : List UInt8) (dg : DigestCfg) :
    List UInt8 :=
  let head := (⟨op.code, status, requestId, .ofNat body.length⟩ : MsgHdr).encode ++ opHeader
  head ++ (if dg.header then encodeLe 4 (crc32c head).toNat else []) ++ body ++
    (if dg.data then encodeLe 4 (crc32c body).toNat else [])

section Parse

variable {buf : List UInt8} {maxTx : UInt32} {dg : DigestCfg} {hdr : MsgHdr} {ohs : ℕ} {m : Message}

lemma parseBody_ok (h : parseBody buf dg hdr ohs = .ok m) : 8 ≤ m.total ∧ m.total ≤ buf.length := by
  simp only [parseBody] at h
  split_ifs at h with hlen
  cases h
  exact ⟨by simp only; omega, not_lt.mp hlen⟩

lemma parseBody_append (more : List UInt8) (h : parseBody buf dg hdr ohs ≠ .error .incomplete) :
    parseBody (buf ++ more) dg hdr ohs = parseBody buf dg hdr ohs := by
  simp only [parseBody] at h ⊢
  by_cases hlen : buf.length < 8 + ohs + dg.headerSize + hdr.bodyLen.toNat + dg.dataSize
  · exact absurd (if_pos hlen) h
  · have hlen' : ¬ (buf ++ more).length < 8 + ohs + dg.headerSize + hdr.bodyLen.toNat + dg.dataSize := by
      rw [List.length_append]
      omega
    -- every stretch that the verdict depends on lies within the message
    have hhead : dg.header = true → digestOk (buf ++ more) (8 + ohs) ((buf ++ more).take (8 + ohs)) =
        digestOk buf (8 + ohs) (buf.take (8 + ohs)) := by
      intro hd
      rw [DigestCfg.headerSize, if_pos hd] at hlen
      rw [digestOk, slice_append (by omega), List.take_append_of_le_length (by omega), digestOk]
    have hbody : slice (buf ++ more) (8 + ohs + dg.headerSize) hdr.bodyLen.toNat =
        slice buf (8 + ohs + dg.headerSize) hdr.bodyLen.toNat := slice_append (by omega)
    have hdata : dg.data = true → ∀ data, digestOk (buf ++ more) (8 + ohs + dg.headerSize + hdr.bodyLen.toNat) data =
        digestOk buf (8 + ohs + dg.headerSize + hdr.bodyLen.toNat) data := by
      intro hd data
      rw [DigestCfg.dataSize, if_pos hd] at hlen
      rw [digestOk, slice_append (by omega), digestOk]
    rw [if_neg hlen, if_neg hlen', hbody, slice_append (by omega : 8 + ohs ≤ buf.length)]
    cases hh : dg.header <;> cases hd : dg.data <;> simp_all

lemma parseBody_of_ok (h : parseMessage buf maxTx dg = .ok m) : ∃ ohs, opHdrSize (MsgHdr.decode buf).op = some ohs ∧
    (MsgHdr.decode buf).bodyLen ≤ maxTx ∧ parseBody buf dg (MsgHdr.decode buf) ohs = .ok m := by
  simp only [parseMessage] at h
  cases hs : opHdrSize (MsgHdr.decode buf).op with
  | none =>
    simp only [hs] at h
    split_ifs at h
  | some ohs =>
    simp only [hs] at h
    split_ifs at h with hshort hlong
    exact ⟨ohs, rfl, UInt32.not_lt.mp hlong, h⟩

lemma parseMessage_ok (h : parseMessage buf maxTx dg = .ok m) : 8 ≤ m.total ∧ m.total ≤ buf.length := by
  obtain ⟨ohs, -, -, hbody⟩ := parseBody_of_ok h
  exact parseBody_ok hbody

lemma parseMessage_header (h : parseMessage buf maxTx dg = .ok m) :
    ∃ ohs, opHdrSize m.hdr.op = some ohs ∧ 8 + ohs ≤ m.total := by
  obtain ⟨ohs, hs, -, hbody⟩ := parseBody_of_ok h
  simp only [parseBody] at hbody
  split_ifs at hbody
  cases hbody
  exact ⟨ohs, hs, by simp only; omega⟩

lemma length_body_le (h : parseMessage buf maxTx dg = .ok m) : m.body.length ≤ maxTx.toNat := by
  obtain ⟨ohs, -, hle, hbody⟩ := parseBody_of_ok h
  simp only [parseBody] at hbody
  split_ifs at hbody
  cases hbody
  exact (List.length_take_le _ _).trans (UInt32.le_iff_toNat_le.mp hle)

lemma parseMessage_append (more : List UInt8) (h : parseMessage buf maxTx dg ≠ .error .incomplete) :
    parseMessage (buf ++ more) maxTx dg = parseMessage buf maxTx dg := by
  simp only [parseMessage] at h ⊢
  by_cases hlen : buf.length < 8
  · exact absurd (if_pos hlen) h
  · have hlen' : ¬ (buf ++ more).length < 8 := by
      rw [List.length_append]
      omega
    rw [if_neg hlen] at h
    rw [if_neg hlen, if_neg hlen', MsgHdr.decode_append (not_lt.mp hlen)]
    cases hs : opHdrSize (MsgHdr.decode buf).op with
    | none => rfl
    | some ohs =>
      simp only [hs] at h ⊢
      split_ifs at h ⊢ with h₁ h₂
      · rfl
      · rfl
      · exact parseBody_append more h

def parser (maxTx : UInt32) (dg : DigestCfg) : Framing.Parser UInt8 Message ParseError where
  parse buf := parseMessage buf maxTx dg
  incomplete := .incomplete
  size := Message.total
  nil := rfl
  size_pos h := by
    have := parseMessage_ok h
    omega
  size_le h := (parseMessage_ok h).2
  stable more h := parseMessage_append more h

end Parse

lemma decode_frameMessage (op : Op) (status : UInt8) (requestId : UInt16) (opHeader body : List UInt8)
    (dg : DigestCfg) : MsgHdr.decode (frameMessage op status requestId opHeader body dg) =
      ⟨op.code, status, requestId, .ofNat body.length⟩ := by
  simp only [frameMessage, List.append_assoc]
  rw [MsgHdr.decode_append (MsgHdr.length_encode _).ge, MsgHdr.decode_encode]

lemma parseMessage_frame_ok {op : Op} {status : UInt8} {requestId : UInt16} {opHeader body : List UInt8}
    {maxTx : UInt32} {m : Message} (hop : opHdrSize op.code = some opHeader.length)
    (h : parseMessage (frameMessage op status requestId opHeader body {}) maxTx {} = .ok m) :
    m.hdr = ⟨op.code, status, requestId, .ofNat body.length⟩ ∧ m.opHeader = opHeader ∧ ∃ k, m.body = body.take k := by
  obtain ⟨ohs, hs, -, hbody⟩ := parseBody_of_ok h
  rw [decode_frameMessage] at hs hbody
  obtain rfl : ohs = opHeader.length := Option.some.inj (hs.symm.trans hop)
  set head := (⟨op.code, status, requestId, .ofNat body.length⟩ : MsgHdr).encode with hhead
  have hlen : head.length = 8 := MsgHdr.length_encode _
  have hframe : frameMessage op status requestId opHeader body {} = head ++ (opHeader ++ body) := by
    simp [frameMessage, hhead]
  simp only [parseBody, hframe] at hbody
  split_ifs at hbody
  cases hbody
  refine ⟨rfl, ?_, (UInt32.ofNat body.length).toNat, ?_⟩
  · change slice (head ++ (opHeader ++ body)) 8 opHeader.length = opHeader
    rw [← hlen, slice_append_right, List.take_left]
  · change slice (head ++ (opHeader ++ body)) (8 + opHeader.length) _ = _
    rw [← hlen, slice_append_add, slice_append_right]

lemma parseMessage_too_long {op : Op} {body opHeader : List UInt8} {maxTx : UInt32} (h : maxTx.toNat < body.length)
    (hlt : body.length < 2 ^ 32) (status : UInt8) (requestId : UInt16)
    (dg : DigestCfg) :
    parseMessage (frameMessage op status requestId opHeader body dg) maxTx dg = .error .badLength := by
  have hop : ∃ ohs, opHdrSize op.code = some ohs := by cases op <;> exact ⟨_, rfl⟩
  obtain ⟨ohs, hop⟩ := hop
  have hlen : ¬ (frameMessage op status requestId opHeader body dg).length < 8 := by
    simp only [frameMessage, List.length_append, MsgHdr.length_encode]
    omega
  have hlong : maxTx < UInt32.ofNat body.length := by
    rwa [UInt32.lt_iff_toNat_lt, UInt32.toNat_ofNat_of_lt' hlt]
  simp only [parseMessage, if_neg hlen, decode_frameMessage, hop, if_pos hlong]

structure Outgoing (maxTx : UInt32) where
  op : Op
  status : UInt8
  requestId : UInt16
  opHeader : List UInt8
  body : List UInt8
  header_size : opHdrSize op.code = some opHeader.length
  body_allowed : body ≠ [] → opAllowsBody op.code = true
  body_le : body.length ≤ maxTx.toNat

namespace Outgoing

variable {maxTx : UInt32} (m : Outgoing maxTx) (dg : DigestCfg)

def frame : List UInt8 := frameMessage m.op m.status m.requestId m.opHeader m.body dg

def hdr : MsgHdr := ⟨m.op.code, m.status, m.requestId, .ofNat m.body.length⟩

def message : Message :=
  ⟨m.hdr, m.opHeader, m.body, 8 + m.opHeader.length + dg.headerSize + m.body.length + dg.dataSize⟩

lemma bodyLen_toNat : m.hdr.bodyLen.toNat = m.body.length :=
  UInt32.toNat_ofNat_of_lt' (m.body_le.trans_lt maxTx.toNat_lt)

lemma length_frame : (m.frame dg).length = (m.message dg).total := by
  simp only [frame, frameMessage, message, DigestCfg.headerSize, DigestCfg.dataSize, List.length_append,
    MsgHdr.length_encode]
  split_ifs <;> simp

lemma parseBody_frame : parseBody (m.frame dg) dg m.hdr m.opHeader.length = .ok (m.message dg) := by
  set head := m.hdr.encode ++ m.opHeader with hhead
  have hlen : head.length = 8 + m.opHeader.length := by rw [hhead, List.length_append, MsgHdr.length_encode]
  -- the frame cut before each of its parts
  set hdgst := if dg.header then encodeLe 4 (crc32c head).toNat else [] with hhd
  set ddgst := if dg.data then encodeLe 4 (crc32c m.body).toNat else [] with hdd
  have hframe : m.frame dg = head ++ (hdgst ++ (m.body ++ ddgst)) := by
    simp [frame, frameMessage, hhead, hhd, hdd, hdr]
  have hlen₁ : hdgst.length = dg.headerSize := by
    rw [hhd, DigestCfg.headerSize]
    split_ifs <;> simp
  have hbody : slice (m.frame dg) (8 + m.opHeader.length + dg.headerSize) m.body.length = m.body := by
    rw [hframe, ← hlen, ← hlen₁, ← List.append_assoc, ← List.length_append, slice_append_right,
      List.take_left]
  have hop : slice (m.frame dg) 8 m.opHeader.length = m.opHeader := by
    rw [hframe, hhead, List.append_assoc, ← m.hdr.length_encode, slice_append_right, List.take_left]
  have hdig : ∀ c : UInt32, decodeLe (encodeLe 4 c.toNat) = c.toNat := by
    intro c
    rw [decodeLe_encodeLe]
    exact Nat.mod_eq_of_lt c.toNat_lt
  have hhdOk : dg.header = true → digestOk (m.frame dg) (8 + m.opHeader.length)
      ((m.frame dg).take (8 + m.opHeader.length)) = true := by
    intro hd
    have hs : slice (m.frame dg) (8 + m.opHeader.length) 4 = encodeLe 4 (crc32c head).toNat := by
      rw [hframe, ← hlen, slice_append_right, hhd, if_pos hd, List.take_left' (length_encodeLe _ _)]
    rw [digestOk, hs, hframe, ← hlen, List.take_left, hdig, beq_self_eq_true]
  have hddOk : dg.data = true → digestOk (m.frame dg)
      (8 + m.opHeader.length + dg.headerSize + m.body.length) m.body = true := by
    intro hd
    have hs : slice (m.frame dg) (8 + m.opHeader.length + dg.headerSize + m.body.length) 4 =
        encodeLe 4 (crc32c m.body).toNat := by
      rw [hframe, ← hlen, ← hlen₁, ← List.length_append, ← List.append_assoc, ← List.append_assoc,
        ← List.length_append, slice_append_right, hdd, if_pos hd]
      exact List.take_of_length_le (length_encodeLe _ _).le
    rw [digestOk, hs, hdig, beq_self_eq_true]
  have htotal := m.length_frame dg
  simp only [message] at htotal
  simp only [parseBody, bodyLen_toNat, hbody, hop]
  rw [if_neg (by omega), if_neg (by simpa using hhdOk), if_neg (by simpa using hddOk)]
  rfl

lemma parseMessage_of_hdr {buf : List UInt8} (hlen : 8 ≤ buf.length) (hdec : MsgHdr.decode buf = m.hdr) :
    parseMessage buf maxTx dg = parseBody buf dg m.hdr m.opHeader.length := by
  have hop : opHdrSize m.hdr.op = some m.opHeader.length := m.header_size
  simp only [parseMessage, hdec, hop]
  rw [if_neg (not_lt.mpr hlen), if_neg, if_neg]
  · rintro ⟨hpos, hno⟩
    apply hno
    apply m.body_allowed
    rintro hnil
    rw [UInt32.lt_iff_toNat_lt, bodyLen_toNat, hnil] at hpos
    exact absurd hpos (lt_irrefl 0)
  · rw [UInt32.lt_iff_toNat_lt, bodyLen_toNat]
    exact m.body_le.not_gt

lemma decode_frame : MsgHdr.decode (m.frame dg) = m.hdr := decode_frameMessage _ _ _ _ _ _

lemma parseMessage_frame : parseMessage (m.frame dg) maxTx dg = .ok (m.message dg) := by
  have hlen := m.length_frame dg
  simp only [message] at hlen
  rw [m.parseMessage_of_hdr dg (by omega) (m.decode_frame dg), m.parseBody_frame dg]

lemma frame_isFrame : (parser maxTx dg).Frame (m.frame dg) (m.message dg) :=
  ⟨m.parseMessage_frame dg, (m.length_frame dg).symm⟩

end Outgoing

end CraftClient.Wire
