import CraftClient.Net.Server
import CraftClient.Replica.Layout

namespace CraftClient.Net

open Bytes Replica Wire

def ParsesAs (op : Op) (bytes : List UInt8) : Prop :=
  ∃ bound : UInt32, ∀ maxTx, bound ≤ maxTx →
    ∃ m, parseMessage bytes maxTx {} = .ok m ∧ m.hdr.op = op.code ∧ m.total = bytes.length

section Frame

structure Reply.Fits (r : Reply) (op : Op) : Prop where
  op_eq : r.op = op
  header : opHdrSize op.code = some r.opHeader.length
  body : r.body ≠ [] → opAllowsBody op.code = true
  length : r.body.length < 2 ^ 32

variable {r : Reply} {op : Op}

lemma Reply.length_bytes (r : Reply) (requestId : UInt16) :
    (r.bytes requestId).length = 8 + r.opHeader.length + r.body.length := by
  simp [bytes, frameMessage, Nat.add_assoc]

lemma Reply.Fits.parses (h : r.Fits op) (requestId : UInt16) : ParsesAs op (r.bytes requestId) := by
  obtain ⟨rfl, hheader, hbody, hlength⟩ := h
  refine ⟨.ofNat r.body.length, fun maxTx hle => ?_⟩
  rw [UInt32.le_iff_toNat_le, UInt32.toNat_ofNat_of_lt' hlength] at hle
  let out : Outgoing maxTx := ⟨r.op, r.status, requestId, r.opHeader, r.body, hheader, hbody, hle⟩
  refine ⟨_, out.parseMessage_frame {}, rfl, ?_⟩
  rw [Reply.length_bytes]
  rfl

lemma Reply.Fits.of_nil (hop : r.op = op) (hheader : opHdrSize op.code = some r.opHeader.length) (hb : r.body = []) :
    r.Fits op :=
  ⟨hop, hheader, fun hne => absurd hb hne, by rw [hb]; decide⟩

lemma not_parsesAs_short {requestId : UInt16} {ohs : ℕ} (hs : opHdrSize op.code = some ohs)
    (hlt : (r.bytes requestId).length < 8 + ohs) : ¬ ParsesAs op (r.bytes requestId) := by
  rintro ⟨bound, h⟩
  obtain ⟨m, hm, hop, htotal⟩ := h bound (UInt32.le_iff_toNat_le.mpr le_rfl)
  obtain ⟨ohs', hs', hle⟩ := parseMessage_header hm
  rw [hop, hs] at hs'
  cases hs'
  omega

end Frame

section Read

variable {addr len : UInt64} {H : ℤ}

lemma length_readBody_le (layout : List IoExtent) (destBuf : List UInt8) (addr : UInt64) :
    (readBody layout destBuf addr).length ≤ layout.length * 24 + dataLen layout := by
  have hdata : (layout.flatMap fun e =>
      if e.hole then [] else slice destBuf (e.addr - addr).toNat e.len.toNat).length ≤ dataLen layout := by
    induction layout with
    | nil => rfl
    | cons e es ih =>
      rw [List.flatMap_cons, List.length_append]
      cases he : e.hole with
      | true => simpa [dataLen, he] using ih
      | false =>
        have hle : (slice destBuf (e.addr - addr).toNat e.len.toNat).length ≤ e.len.toNat := List.length_take_le _ _
        simpa [dataLen, he] using Nat.add_le_add hle ih
  rw [readBody, List.length_append, length_encodeExtents]
  omega

lemma fits_readRefused (status : UInt8) : (readRefused status).Fits .readRsp :=
  .of_nil rfl (by simp [readRefused]; rfl) rfl

lemma length_readReply_runs (r : MemReplica) (hdr : ClientHdr) (req : ReadReq) : ∃ holes : List Bool,
    holes.length * r.pageSize.toNat ≤ req.len.toNat ∧ holes.length ≤ req.len.toNat / r.pageSize.toNat ∧
      (readReply r hdr req).1.body.length ≤
        (holes.destutter (· ≠ ·)).length * 24 + holes.count false * r.pageSize.toNat := by
  rw [readReply]
  cases hread : r.doReadInto hdr req.readLsn req.addr req.len ⟨req.len, [List.replicate req.len.toNat 0]⟩ with
  | error e => exact ⟨[], by simp, Nat.zero_le _, Nat.zero_le _⟩
  | ok out =>
    obtain ⟨res, dest', r'⟩ := out
    obtain ⟨hr, -⟩ := MemReplica.doReadInto_ok hread
    obtain ⟨-, -, hr', hres⟩ := MemReplica.doRead_ok hr
    have hp : r'.pageSize = r.pageSize := by
      rw [hr']
      exact (MemReplica.applies_applyUpTo r _).pageSize
    have hext : res.extents = (r'.readRange req.readLsn req.addr req.len).2 := by rw [hres]
    obtain ⟨next, hcoal⟩ := r'.coalesced_readRange req.readLsn req.addr req.len
    rw [← hext] at hcoal
    have hcount : ((r'.readRange req.readLsn req.addr req.len).1.map Block.hole).length = r'.blocksOf req.len := by
      rw [List.length_map, MemReplica.readRange_blocks, List.length_map, List.length_range]
    have hruns := congrArg List.length hcoal.runs
    rw [List.length_map] at hruns
    rw [← hp]
    refine ⟨(r'.readRange req.readLsn req.addr req.len).1.map Block.hole, ?_, ?_, ?_⟩
    · rw [hcount]
      exact r'.blocksOf_mul_le req.len
    · rw [hcount, MemReplica.blocksOf_eq]
      exact Nat.mod_le _ _
    · rw [← hruns]
      exact (length_readBody_le res.extents dest'.bytes req.addr).trans (Nat.add_le_add_left hcoal.data _)

lemma length_readReply_le (r : MemReplica) (hdr : ClientHdr) (req : ReadReq) :
    (readReply r hdr req).1.body.length ≤ req.len.toNat + req.len.toNat / r.pageSize.toNat * 24 := by
  obtain ⟨holes, hmul, hle, hbody⟩ := length_readReply_runs r hdr req
  have hruns := (length_destutter_le holes).1
  have hdata := Nat.mul_le_mul_right r.pageSize.toNat (holes.count_le_length (a := false))
  omega

lemma fits_readReply (r : MemReplica) (hdr : ClientHdr) (req : ReadReq)
    (h : req.len.toNat + req.len.toNat / r.pageSize.toNat * 24 < 2 ^ 32) :
    (readReply r hdr req).1.Fits .readRsp := by
  have hlen := (length_readReply_le r hdr req).trans_lt h
  rw [readReply] at hlen ⊢
  cases hread : r.doReadInto hdr req.readLsn req.addr req.len ⟨req.len, [List.replicate req.len.toNat 0]⟩ with
  | error e => exact .of_nil rfl (by simp; rfl) rfl
  | ok out =>
    rw [hread] at hlen
    exact ⟨rfl, by simp; rfl, fun _ => rfl, hlen⟩

end Read

lemma fits_statusReply {op : Op} (status : UInt8) (h : opHdrSize op.code = some 0) : (statusReply op status).Fits op :=
  .of_nil rfl h rfl

lemma fits_lsnReply {op : Op} (status : UInt8) (l : LsnPair) (h : opHdrSize op.code = some 16) :
    (lsnReply op status l).Fits op :=
  .of_nil rfl (by rw [lsnReply, length_encodeLsns, h]) rfl

lemma fits_resolveReply (status : UInt8) (res : ResolutionResult) (h : res.emptySlots.length * 8 < 2 ^ 32) :
    (resolveReply status res).Fits .resolveRsp := by
  refine ⟨rfl, by simp [resolveReply]; rfl, fun _ => rfl, ?_⟩
  rw [resolveReply, length_flatMap_const _ fun z _ => length_encodeI64 z]
  exact h

lemma length_onResolve_le (v : TcpServer) (commitLsn allCommittedLsn upto : ℤ) :
    (v.onResolve commitLsn allCommittedLsn upto).1.2.emptySlots.length ≤ (upto - v.replica.commitLsn).toNat := by
  rw [TcpServer.onResolve]
  split
  case isTrue => exact Nat.zero_le _
  case isFalse =>
    cases hr : v.replica.doResolveLocal (v.hdr commitLsn allCommittedLsn) upto with
    | error e => exact Nat.zero_le _
    | ok out =>
      obtain ⟨-, hl, -⟩ := doResolveLocal_ok hr
      have hle := List.length_filter_le (fun d => (v.replica.journal.find d).all MemJournalSlot.isEmpty)
        (MemReplica.dlsns v.replica.commitLsn upto)
      rw [← hl, MemReplica.dlsns, List.length_map, List.length_range] at hle
      exact hle

section Servers

def CraftTcpServer.established (v : CraftTcpServer) (b : Backend) (opHeader : List UInt8) :
    Except ErrorCond LoginResult :=
  (b.establish (.decode opHeader) (v.nextTerm + 1) v.replica).1

def grants : Except ErrorCond LoginResult → Prop
  | .ok res => res.leaderHint = none
  | .error _ => False

def CraftTcpServer.Small (v : CraftTcpServer) (b : Backend) (opHeader : List UInt8) : ClientOp → Prop
  | .login => ∀ res, v.established b opHeader = .ok res → (res.members.flatMap putMember).length < 2 ^ 32
  | .read =>
    let len := (ReadReq.decode opHeader).len.toNat
    len + len / v.replica.pageSize.toNat * 24 < 2 ^ 32
  | .resolve => ((ResolveReq.decode opHeader).upto - v.replica.commitLsn).toNat * 8 < 2 ^ 32
  | _ => True

def ClusterConn.Small (b : ClusterBackend) (c : ClusterConn) (r : MemReplica) (opHeader : List UInt8) :
    ClientOp → Prop
  | .login => (b.members.flatMap putMember).length < 2 ^ 32
  | .read =>
    let len := (ReadReq.decode opHeader).len.toNat
    len + len / r.pageSize.toNat * 24 < 2 ^ 32
  | .resolve => ∀ res, b.runResolution c.connTerm (ResolveReq.decode opHeader).upto = .ok res →
    res.emptySlots.length * 8 < 2 ^ 32
  | _ => True

variable {v : CraftTcpServer} {b : Backend} {opHeader : List UInt8}

lemma fits_loginReply {term : UInt64} {r : MemReplica} {res : Except ErrorCond LoginResult} (hg : grants res)
    (hs : ∀ r, res = .ok r → (r.members.flatMap putMember).length < 2 ^ 32) :
    (({ v with replica := r, nextTerm := term, sessionTerm := term } : CraftTcpServer).loginReply res).Fits
      .loginRsp := by
  cases res with
  | error e => exact hg.elim
  | ok res =>
    have hn : res.leaderHint = none := hg
    simp only [CraftTcpServer.loginReply, hn, Option.isSome_none, Bool.false_eq_true, if_false]
    exact ⟨rfl, by simp; rfl, fun _ => rfl, hs res rfl⟩

lemma loginReply_of_not_grants {res : Except ErrorCond LoginResult} (hg : ¬ grants res) :
    ∃ status, v.loginReply res = statusReply .loginRsp status := by
  cases res with
  | error e => exact ⟨_, rfl⟩
  | ok res =>
    have hn : res.leaderHint.isSome = true := Option.isSome_iff_ne_none.mpr hg
    exact ⟨Wire.notLeader, by rw [CraftTcpServer.loginReply, if_pos hn]⟩

lemma fits_serve {op : ClientOp} {body : List UInt8} (hs : v.Small b opHeader op)
    (hg : op = .login → grants (v.established b opHeader)) : (v.serve b op opHeader body).1.Fits op.rsp := by
  cases op with
  | login => exact fits_loginReply (hg rfl) hs
  | helo => exact fits_statusReply _ rfl
  | write => exact fits_lsnReply _ _ rfl
  | read =>
    simp only [CraftTcpServer.serve, ClientOp.decode, CraftTcpServer.handle, CraftTcpServer.onRead]
    split_ifs
    · exact fits_readReply _ _ _ hs
    · exact fits_readRefused _
  | keepalive => exact fits_lsnReply _ _ rfl
  | resolve =>
    have hle := length_onResolve_le v.toTcpServer (ResolveReq.decode opHeader).hdr.commitLsn
      (ResolveReq.decode opHeader).hdr.allCommittedLsn (ResolveReq.decode opHeader).upto
    have hsmall : ((ResolveReq.decode opHeader).upto - v.replica.commitLsn).toNat * 8 < 2 ^ 32 := hs
    exact fits_resolveReply _ _ ((Nat.mul_le_mul_right 8 hle).trans_lt hsmall)
  | logout =>
    simp only [CraftTcpServer.serve, ClientOp.decode, CraftTcpServer.handle, CraftTcpServer.onLogout]
    split_ifs <;> exact fits_statusReply _ rfl
  | createVolume => exact fits_statusReply _ rfl

lemma fits_reply {c : ClusterConn} {b : ClusterBackend} {r : MemReplica} {op : ClientOp} {body : List UInt8}
    {rsp : Reply} (hs : c.Small b r opHeader op) (h : c.reply b r op opHeader body = some rsp) : rsp.Fits op.rsp := by
  have hlogin : ∀ status l, (⟨.loginRsp, status, LoginRsp.encode l, []⟩ : Reply).Fits .loginRsp :=
    fun status l => .of_nil rfl (by simp; rfl) rfl
  cases op with
  | login =>
    cases h
    simp only [ClusterConn.onLogin]
    split
    case isTrue => exact hlogin _ _
    case isFalse =>
      cases b.runLogin (LoginReq.decode opHeader).clientToken with
      | error e => exact hlogin _ _
      | ok out =>
        simp only
        split_ifs
        · exact hlogin _ _
        · exact ⟨rfl, by simp; rfl, fun _ => rfl, hs⟩
  | helo =>
    cases h
    simp only [ClusterConn.onHelo]
    split_ifs <;> exact fits_statusReply _ rfl
  | write =>
    cases h
    simp only [ClusterConn.onWrite]
    split_ifs
    any_goals exact fits_lsnReply _ _ rfl
    cases r.doWrite (c.hdr (WriteReq.decode opHeader).hdr) (WriteReq.decode opHeader).dlsn
      (WriteReq.decode opHeader).addr (WriteReq.decode opHeader).len (payload body) <;> exact fits_lsnReply _ _ rfl
  | read =>
    cases h
    simp only [ClusterConn.onRead]
    split_ifs
    · exact fits_readReply _ _ _ hs
    · exact fits_readRefused _
    · exact fits_readRefused _
  | keepalive =>
    cases h
    simp only [ClusterConn.onKeepAlive]
    split_ifs
    any_goals exact fits_lsnReply _ _ rfl
    cases r.doKeepAlive (c.hdr (ReqHdr.decode opHeader)) <;> exact fits_lsnReply _ _ rfl
  | resolve =>
    cases h
    simp only [ClusterConn.onResolve]
    split_ifs
    · cases hr : b.runResolution c.connTerm (ResolveReq.decode opHeader).upto with
      | error e => exact fits_resolveReply _ _ (by decide)
      | ok res => exact fits_resolveReply _ _ (hs res hr)
    · exact fits_resolveReply _ _ (by decide)
    · exact fits_resolveReply _ _ (by decide)
  | logout =>
    cases h
    simp only [ClusterConn.onLogout]
    split_ifs
    · cases b.runLogout c.connTerm <;> exact fits_statusReply _ rfl
    · exact fits_statusReply _ rfl
  | createVolume => cases h

theorem replies_parse (op : ClientOp) (opHeader body : List UInt8) (requestId : UInt16) :
    (∀ (v : CraftTcpServer) (b : Backend), v.Small b opHeader op →
      (ParsesAs op.rsp ((v.serve b op opHeader body).1.bytes requestId) ↔
        (op = .login → grants (v.established b opHeader)))) ∧
    ∀ (c : ClusterConn) (b : ClusterBackend) (r : MemReplica) (rsp : Reply), c.Small b r opHeader op →
      c.reply b r op opHeader body = some rsp → ParsesAs op.rsp (rsp.bytes requestId) := by
  refine ⟨?_, fun c b r rsp hs h => (fits_reply hs h).parses requestId⟩
  intro v b hs
  constructor
  · rintro hp rfl
    by_contra hg
    obtain ⟨status, hrsp⟩ := loginReply_of_not_grants (v := { v with
      replica := (b.establish (.decode opHeader) (v.nextTerm + 1) v.replica).2
      nextTerm := v.nextTerm + 1, sessionTerm := v.nextTerm + 1 }) hg
    have hbytes : (v.serve b .login opHeader body).1 = statusReply .loginRsp status := hrsp
    rw [hbytes] at hp
    have hshort : ((statusReply .loginRsp status).bytes requestId).length < 8 + 56 := by
      rw [Reply.length_bytes]
      exact of_decide_eq_true rfl
    exact not_parsesAs_short rfl hshort hp
  · exact fun hg => (fits_serve hs hg).parses requestId

theorem replies_parse_firstRead :
    let b := coldBackend ⟨nilId, []⟩ fun _ _ => .ok ()
    let v := CraftTcpServer.new ⟨2 ^ 30, 4096, 2 ^ 19, ⟨nilId, []⟩⟩
    let v' := (v.serve b .login (List.replicate 24 0) []).2
    let req : List UInt8 := List.replicate 33 0 ++ 16 :: List.replicate 6 0
    v.Small b (List.replicate 24 0) .login ∧ v'.Small b req .read ∧ (ReadReq.decode req).len = 4096 ∧
      ParsesAs .loginRsp ((v.serve b .login (List.replicate 24 0) []).1.bytes 7) ∧
      ParsesAs .readRsp ((v'.serve b .read req []).1.bytes 8) := by
  intro b v v' req
  have hlogin : v.Small b (List.replicate 24 0) .login := by
    intro res h
    cases h
    decide
  have hlen : (ReadReq.decode req).len = 4096 := by decide +kernel
  have hread : v'.Small b req .read := by
    change _ + _ / (4096 : UInt32).toNat * 24 < 2 ^ 32
    rw [hlen]
    decide
  refine ⟨hlogin, hread, hlen, ?_, ?_⟩
  · exact ((replies_parse .login (List.replicate 24 0) [] 7).1 v b hlogin).mpr fun _ => rfl
  · exact ((replies_parse .read req [] 8).1 v' b hread).mpr nofun

theorem failed_login_incomplete :
    let b : Backend := ⟨true, fun _ _ r => (.error (.craft .noQuorum), r), fun _ _ => .ok ()⟩
    let v := CraftTcpServer.new ⟨2 ^ 30, 4096, 2 ^ 19, ⟨nilId, []⟩⟩
    let rsp := (v.serve b .login (List.replicate 24 0) []).1.bytes 7
    rsp = [2, 3, 7, 0, 0, 0, 0, 0] ∧ parseMessage rsp 0xFFFFFFFF {} = .error .incomplete := by
  decide +kernel

end Servers

end CraftClient.Net
