import CraftClient.Lib.Mealy
import CraftClient.Net.WireRead
import CraftClient.Wire.Members
import CraftClient.Wire.Requests

/-! The blocking tier of a proxy and its server, message by message: together they are the replica behind the server. -/

namespace CraftClient.Net

open Bytes Replica Wire
open Client (NetError netToError)

section Model

def ClientOp.ofCode (code : UInt8) : Option ClientOp :=
  [login, helo, write, read, keepalive, resolve, logout, createVolume].find? fun op => op.req.code = code

def CraftTcpServer.turn (v : CraftTcpServer) (b : Backend) (msg : List UInt8) : Option (List UInt8 × CraftTcpServer) :=
  match parseMessage msg v.geo.maxTx {} with
  | .error _ => none
  | .ok m => (ClientOp.ofCode m.hdr.op).map fun op =>
      let (rsp, v') := v.serve b op m.opHeader m.body
      (rsp.bytes m.hdr.requestId, v')

/-- A proxy without a ring, and its server. `bound` is `bound_term_` while `bound_` is set; `broken` is what the next
operation on `conn_` meets once its socket is dead, which the proxy does not know before. -/
structure Link where
  volId : List UInt8
  connected : Bool
  bound : Option UInt64
  broken : Option NetError
  nextRid : UInt16
  maxTx : UInt32
  lba : UInt32
  srv : CraftTcpServer

inductive LinkCall
  | login (clientToken : UInt64)
  | write (hdr : ClientHdr) (dlsn : ℤ) (addr len : UInt64) (data : Option (List UInt8))
  | read (hdr : ClientHdr) (readLsn : ℤ) (addr len : UInt64) (dest : SgList)
  | keepAlive (hdr : ClientHdr)
  | resolve (hdr : ClientHdr) (upto : ℤ)
  | logout
  /-- The connection breaks between two operations, on which the next one fails to send or to receive. -/
  | drop (e : NetError)

inductive LinkAnswer
  | login (term : UInt64) (dlsn : ℤ) (capacity : UInt64) (lbaSize maxTx : UInt32) (leaderHint : List UInt8)
      (members : List Member)
  | lsns (l : LsnPair)
  | read (extents : List IoExtent) (lsns : LsnPair) (dest : SgList)
  | resolution (res : ResolutionResult)
  | done
  deriving DecidableEq

abbrev LinkResult := Except ErrorCond LinkAnswer

def receive (op : ClientOp) : Except NetError (List UInt8) → Except NetError Message
  | .error e => .error e
  | .ok bytes =>
    match parseMessage bytes kMaxTx {} with
    | .error .incomplete => .error .timedOut
    | .error _ => .error .malformed
    | .ok m => if m.hdr.op ≠ op.rsp.code then .error .malformed else .ok m

namespace Link

variable (b : Backend) (s : Link)

def new (volId : List UInt8) (geo : ServerGeometry) : Link := ⟨volId, false, none, none, 1, kDefaultMaxTx, 0, .new geo⟩

def poisoned : Link := { s with connected := false, bound := none }

def fault (e : NetError) : ErrorCond × Link := (netToError e, if e = .invalidArgument then s else s.poisoned)

def failed (e : NetError) : LinkResult × Link := (.error (s.fault e).1, (s.fault e).2)

def ensureConnected : Link :=
  if s.connected then s else { s with connected := true, broken := none, nextRid := 1 }

def send (op : ClientOp) (opHeader body : List UInt8) : Except NetError (List UInt8) × Link :=
  let s' := { s with nextRid := s.nextRid + 1 }
  match s.broken with
  | some e => (.error e, s')
  | none =>
    match s.srv.turn b (frameMessage op.req 0 s.nextRid opHeader body {}) with
    | none => (.error .closed, s')
    | some (bytes, srv) => (.ok bytes, { s' with srv := srv })

def exchange (op : ClientOp) (opHeader body : List UInt8) : Except NetError Message × Link :=
  let (bytes, s') := s.send b op opHeader body
  (receive op bytes, s')

def ensureBound (term clientToken : UInt64) : Option ErrorCond × Link :=
  let s := s.ensureConnected
  if s.bound = some term then (none, s)
  else match s.exchange b .helo (HeloReq.encode ⟨s.volId, clientToken, term⟩) [] with
    | (.error e, s) => (some (s.fault e).1, (s.fault e).2)
    | (.ok m, s) =>
      if m.hdr.status ≠ Wire.ok then (some (statusToError m.hdr.status), s)
      else (none, { s with bound := some term })

def login (clientToken : UInt64) : LinkResult × Link :=
  match s.ensureConnected.exchange b .login (LoginReq.encode ⟨s.volId, clientToken⟩) [] with
  | (.error e, s) => s.failed e
  | (.ok m, s) =>
    let lr := LoginRsp.decode m.opHeader
    match decodeMembers m.body lr.memberCount.toNat with
    | none => s.failed .malformed
    | some members =>
      (.ok (.login lr.term lr.dlsn lr.capacity lr.lbaSize lr.maxTx lr.leaderHint members),
        { s with
          maxTx := if lr.maxTx ≠ 0 then lr.maxTx else s.maxTx
          lba := if lr.lbaSize ≠ 0 then lr.lbaSize else s.lba
          bound := if 0 < lr.term then some lr.term else s.bound })

def logout : LinkResult × Link :=
  match s.ensureConnected.exchange b .logout (ReqHdr.encode ⟨-1, -1⟩) [] with
  | (.error e, s) => s.failed e
  | (.ok m, s) => (if m.hdr.status ≠ Wire.ok then .error (statusToError m.hdr.status) else .ok .done, s)

def io (hdr : ClientHdr) (op : ClientOp) (opHeader body : List UInt8)
    (decode : Message → Except NetError LinkAnswer) : LinkResult × Link :=
  match s.ensureBound b hdr.term hdr.clientToken with
  | (some e, s) => (.error e, s)
  | (none, s) =>
    match s.exchange b op opHeader body with
    | (.error e, s) => s.failed e
    | (.ok m, s) =>
      match decode m with
      | .error e => s.failed e
      | .ok ans => (if m.hdr.status ≠ Wire.ok then .error (statusToError m.hdr.status) else .ok ans, s)

def reqHdr (hdr : ClientHdr) : ReqHdr := ⟨hdr.commitLsn, hdr.allCommittedLsn⟩

def write (hdr : ClientHdr) (dlsn : ℤ) (addr len : UInt64) (data : Option (List UInt8)) : LinkResult × Link :=
  s.io b hdr .write (WriteReq.encode ⟨reqHdr hdr, dlsn, addr, len⟩) (data.getD []) fun m =>
    .ok (.lsns (decodeLsnPair m.opHeader))

def keepAlive (hdr : ClientHdr) : LinkResult × Link :=
  s.io b hdr .keepalive (reqHdr hdr).encode [] fun m => .ok (.lsns (decodeLsnPair m.opHeader))

def requestResolution (hdr : ClientHdr) (upto : ℤ) : LinkResult × Link :=
  s.io b hdr .resolve (ResolveReq.encode ⟨reqHdr hdr, upto⟩) [] fun m =>
    let rr := ResolveRsp.decode m.opHeader
    if m.hdr.status ≠ Wire.ok then .ok (.resolution ⟨rr.resolvedUpto, []⟩)
    else match decodeLsns m.body rr.emptyCount.toNat with
      | none => .error .malformed
      | some empties => .ok (.resolution ⟨rr.resolvedUpto, empties.map Int64.toInt⟩)

def read (hdr : ClientHdr) (readLsn : ℤ) (addr len : UInt64) (dest : SgList) : LinkResult × Link :=
  match s.ensureBound b hdr.term hdr.clientToken with
  | (some e, s) => (.error e, s)
  | (none, s) =>
    match s.send b .read (readRequest hdr readLsn addr len).encode [] with
    | (.error e, s) => s.failed e
    | (.ok bytes, s) =>
      match tcpRead bytes kMaxTx addr len dest with
      | .ok (rsp, dest') => (.ok (.read rsp.extents rsp.lsns dest'), s)
      | .error e =>
        -- only a reply that does not decode costs the connection
        (.error e, if (clientRead bytes kMaxTx addr len (List.replicate len.toNat 0)).isOk then s else s.poisoned)

def call : LinkCall → LinkResult × Link
  | .login clientToken => s.login b clientToken
  | .write hdr dlsn addr len data => s.write b hdr dlsn addr len data
  | .read hdr readLsn addr len dest => s.read b hdr readLsn addr len dest
  | .keepAlive hdr => s.keepAlive b hdr
  | .resolve hdr upto => s.requestResolution b hdr upto
  | .logout => s.logout b
  | .drop e => (.ok .done, { s with broken := some e })

end Link

end Model

section Spec

/-- The way to the replica: not opened, open, or lost without the client knowing. -/
inductive Line
  | down
  | up
  | lost (e : NetError)

def Line.drop (e : NetError) : Line → Line
  | .down => .down
  | .up | .lost _ => .lost e

structure Direct where
  replica : MemReplica
  nextTerm : UInt64
  line : Line

namespace Direct

variable (geo : ServerGeometry) (p : Direct)

def perform {α : Type} (f : α → LinkAnswer) : Except ErrorCond (α × MemReplica) → LinkResult × Direct
  | .error e => (.error e, p)
  | .ok (x, r) => (.ok (f x), { p with replica := r })

def operate : LinkCall → LinkResult × Direct
  | .login clientToken =>
    let term := p.nextTerm + 1
    (.ok (.login term p.replica.lastAppendLsn geo.capacity geo.lbaSize geo.maxTx nilId [geo.member]),
      { p with replica := p.replica.coldApplyLogin clientToken term, nextTerm := term })
  | .write hdr dlsn addr len data => p.perform .lsns (p.replica.doWrite hdr dlsn addr len data)
  | .read hdr readLsn addr len dest => p.perform (fun (res, dest') => .read res.extents res.lsns dest')
      ((p.replica.doReadInto hdr readLsn addr len dest).map fun (res, dest', r) => ((res, dest'), r))
  | .keepAlive hdr => p.perform .lsns (p.replica.doKeepAlive hdr)
  | .resolve hdr upto => p.perform .resolution (p.replica.doResolveLocal hdr upto)
  | .logout => (.ok .done, { p with replica := p.replica.coldApplyLogout })
  | .drop _ => (.ok .done, p)

/-- The first operation after a break only finds out about it; the one after that opens the way again. -/
def call : LinkCall → LinkResult × Direct
  | .drop e => (.ok .done, { p with line := p.line.drop e })
  | c =>
    match p.line with
    | .lost e => (.error (netToError e), { p with line := .down })
    | .down | .up => operate geo { p with line := .up } c

structure Current (hdr : ClientHdr) : Prop where
  term : hdr.term = p.replica.term
  token : hdr.clientToken = p.replica.clientToken
  loggedIn : p.replica.term ≠ 0
  ranged : (Link.reqHdr hdr).Ranged

/-- What a client of the session keeps to: terms do not run out, IO carries the open session, numbers are in the range
of their fields, and requests and replies are not too long for their receivers. -/
def Ok : LinkCall → Prop
  | .login _ => p.nextTerm + 1 ≠ 0
  | .write hdr dlsn _ _ data => p.Current hdr ∧ InI64 dlsn ∧ data ≠ some [] ∧ (data.getD []).length ≤ geo.maxTx.toNat
  | .read hdr readLsn addr len dest => p.Current hdr ∧ InI64 readLsn ∧ addr.toNat + len.toNat < 2 ^ 64 ∧
      len ≤ dest.size ∧ len.toNat ≤ dest.bytes.length ∧
      len.toNat + len.toNat / p.replica.pageSize.toNat * 24 ≤ kMaxTx.toNat
  | .keepAlive hdr => p.Current hdr
  | .resolve hdr upto => p.Current hdr ∧ InI64 upto ∧ (upto - p.replica.commitLsn).toNat * 8 ≤ kMaxTx.toNat
  | .logout => p.replica.term ≠ 0
  | .drop e => e ∈ [NetError.send, .recv, .closed, .timedOut]

end Direct

end Spec

section Exchange

variable {b : Backend} {s : Link} {op : ClientOp} {opHeader body : List UInt8} {rsp : Reply} {v : CraftTcpServer}

lemma ClientOp.ofCode_req (op : ClientOp) : ofCode op.req.code = some op := by cases op <;> rfl

structure Sendable (maxTx : UInt32) (op : ClientOp) (opHeader body : List UInt8) : Prop where
  header : opHdrSize op.req.code = some opHeader.length
  allowed : body ≠ [] → opAllowsBody op.req.code = true
  body_le : body.length ≤ maxTx.toNat

lemma Sendable.of_nil {maxTx : UInt32} (h : opHdrSize op.req.code = some opHeader.length) :
    Sendable maxTx op opHeader [] := ⟨h, fun hne => absurd rfl hne, Nat.zero_le _⟩

lemma Link.send_eq (hup : s.broken = none) (h : Sendable s.srv.geo.maxTx op opHeader body)
    (hserve : s.srv.serve b op opHeader body = (rsp, v)) :
    s.send b op opHeader body =
      (.ok (rsp.bytes s.nextRid), { s with nextRid := s.nextRid + 1, srv := v }) := by
  let out : Outgoing s.srv.geo.maxTx := ⟨op.req, 0, s.nextRid, opHeader, body, h.header, h.allowed, h.body_le⟩
  have hparse : parseMessage (frameMessage op.req 0 s.nextRid opHeader body {}) s.srv.geo.maxTx {} =
      .ok (out.message {}) := out.parseMessage_frame {}
  have hop : (out.message {}).hdr.op = op.req.code := rfl
  have hout : s.srv.serve b op (out.message {}).opHeader (out.message {}).body = (rsp, v) := hserve
  simp only [send, hup, CraftTcpServer.turn, hparse, hop, ClientOp.ofCode_req, Option.map_some, hout]
  rfl

structure Carries (m : Message) (rsp : Reply) : Prop where
  op : m.hdr.op = rsp.op.code
  status : m.hdr.status = rsp.status
  opHeader : m.opHeader = rsp.opHeader
  body : m.body = rsp.body

lemma Reply.Fits.parse {op : Op} {bound : UInt32} (h : rsp.Fits op) (hle : rsp.body.length ≤ bound.toNat)
    (requestId : UInt16) : ∃ m, parseMessage (rsp.bytes requestId) bound {} = .ok m ∧ Carries m rsp := by
  obtain ⟨rfl, hheader, hbody, -⟩ := h
  let out : Outgoing bound := ⟨rsp.op, rsp.status, requestId, rsp.opHeader, rsp.body, hheader, hbody, hle⟩
  exact ⟨out.message {}, out.parseMessage_frame {}, rfl, rfl, rfl, rfl⟩

lemma Link.exchange_eq (hup : s.broken = none) (h : Sendable s.srv.geo.maxTx op opHeader body)
    (hserve : s.srv.serve b op opHeader body = (rsp, v)) (hfits : rsp.Fits op.rsp)
    (hle : rsp.body.length ≤ kMaxTx.toNat) : ∃ m : Message,
      s.exchange b op opHeader body = (.ok m, { s with nextRid := s.nextRid + 1, srv := v }) ∧ Carries m rsp := by
  obtain ⟨m, hm, hcar⟩ := hfits.parse hle s.nextRid
  have hop : m.hdr.op = op.rsp.code := by rw [hcar.op, hfits.op_eq]
  refine ⟨m, ?_, hcar⟩
  simp only [exchange, send_eq hup h hserve, receive, hm, hop, ne_eq, not_true_eq_false, if_false]

end Exchange

section Broken

variable {b : Backend} {s : Link} {e : NetError} {hdr : ClientHdr} {op : ClientOp} {opHeader body : List UInt8}

lemma Link.send_broken (he : s.broken = some e) :
    s.send b op opHeader body = (.error e, { s with nextRid := s.nextRid + 1 }) := by
  simp only [send, he]

lemma Link.exchange_broken (he : s.broken = some e) :
    s.exchange b op opHeader body = (.error e, { s with nextRid := s.nextRid + 1 }) := by
  simp only [exchange, send_broken he, receive]

lemma Link.ensureBound_broken (b : Backend) (term clientToken : UInt64) (hc : s.connected = true)
    (he : s.broken = some e) :
    s.ensureBound b term clientToken = (none, s) ∨ s.ensureBound b term clientToken =
      (some (fault { s with nextRid := s.nextRid + 1 } e).1, (fault { s with nextRid := s.nextRid + 1 } e).2) := by
  have hconn : s.ensureConnected = s := if_pos hc
  by_cases hbound : s.bound = some term
  · exact Or.inl (by simp only [ensureBound, hconn, if_pos hbound])
  · exact Or.inr (by simp only [ensureBound, hconn, if_neg hbound, exchange_broken he])

-- whether it is the HELO or the request itself that finds the socket dead
lemma Link.io_broken {decode : Message → Except NetError LinkAnswer} (hc : s.connected = true)
    (he : s.broken = some e) :
    s.io b hdr op opHeader body decode = failed { s with nextRid := s.nextRid + 1 } e := by
  rcases ensureBound_broken b hdr.term hdr.clientToken hc he with hb | hb
  · simp only [io, hb, exchange_broken he]
  · simp only [io, hb, failed]

lemma Link.read_broken (hc : s.connected = true) (he : s.broken = some e) (readLsn : ℤ) (addr len : UInt64)
    (dest : SgList) : s.read b hdr readLsn addr len dest = failed { s with nextRid := s.nextRid + 1 } e := by
  rcases ensureBound_broken b hdr.term hdr.clientToken hc he with hb | hb
  · simp only [read, hb, send_broken he]
  · simp only [read, hb, failed]

lemma Link.call_broken {c : LinkCall} (hc : s.connected = true) (he : s.broken = some e)
    (hop : ∀ e', c ≠ .drop e') : s.call b c = failed { s with nextRid := s.nextRid + 1 } e := by
  have hconn : s.ensureConnected = s := if_pos hc
  cases c with
  | login clientToken => simp only [call, login, hconn, exchange_broken he]
  | logout => simp only [call, logout, hconn, exchange_broken he]
  | write => rw [call, write, io_broken hc he]
  | keepAlive => rw [call, keepAlive, io_broken hc he]
  | resolve => rw [call, requestResolution, io_broken hc he]
  | read _ readLsn addr len dest => exact read_broken hc he readLsn addr len dest
  | drop e' => exact absurd rfl (hop e')

end Broken

def Link.line (s : Link) : Line :=
  match s.connected, s.broken with
  | false, _ => .down
  | true, none => .up
  | true, some e => .lost e

lemma Link.line_eq_up {s : Link} : s.line = .up ↔ s.connected = true ∧ s.broken = none := by
  rw [line]
  split <;> simp_all

lemma Link.line_eq_lost {s : Link} {e : NetError} : s.line = .lost e ↔ s.connected = true ∧ s.broken = some e := by
  rw [line]
  split <;> simp_all

structure Refines (geo : ServerGeometry) (s : Link) (p : Direct) : Prop where
  geo : s.srv.geo = geo
  replica : s.srv.replica = p.replica
  nextTerm : s.srv.nextTerm = p.nextTerm
  volId : s.volId.length = 16
  line : s.line = p.line
  fault : ∀ e, s.broken = some e → e ≠ .invalidArgument
  session : p.replica.term ≠ 0 → s.srv.sessionActive = true ∧ s.srv.sessionTerm = p.replica.term ∧
    ∀ term, s.bound = some term → term = p.replica.term
  sized : Sized p.replica
  lsns : LsnPair.Ranged p.replica.peekLsns

structure Ready (geo : ServerGeometry) (s : Link) (p : Direct) : Prop extends Refines geo s p where
  up : p.line = .up

def Agrees (geo : ServerGeometry) (out : LinkResult × Link) (out' : LinkResult × Direct) : Prop :=
  out.1 = out'.1 ∧ Refines geo out.2 out'.2

structure Opened (v : CraftTcpServer) (p : Direct) : Prop where
  replica : v.replica = p.replica
  active : v.sessionActive = true
  term : v.sessionTerm = p.replica.term

structure Cold (geo : ServerGeometry) (b : Backend) : Prop where
  raftEnabled : b.raftEnabled = false
  establish : b.establish = coldEstablish geo.member

section Session

variable {geo : ServerGeometry} {b : Backend} {s : Link} {p : Direct} {hdr : ClientHdr} {v : CraftTcpServer}

lemma refines_new {volId : List UInt8} (hvol : volId.length = 16) :
    Refines geo (.new volId geo) ⟨.new geo.lbaSize, 0, .down⟩ where
  geo := rfl
  replica := rfl
  nextTerm := rfl
  volId := hvol
  line := rfl
  fault _ he := by cases he
  session h := absurd rfl h
  sized := by
    constructor
    · intro _ _ _ hs
      cases hs
    · intro _ _ _ hc
      cases hc
  lsns := by
    constructor
    · exact (by decide : InI64 (-1))
    · exact (by decide : InI64 (-1))

lemma Refines.ensureConnected (h : Refines geo s p) (hl : ∀ e, p.line ≠ .lost e) :
    Ready geo s.ensureConnected { p with line := .up } := by
  refine ⟨?_, rfl⟩
  rw [Link.ensureConnected]
  split_ifs with hc
  · have hline : s.line = .up := by
      cases hb : s.broken with
      | none => exact Link.line_eq_up.mpr ⟨hc, hb⟩
      | some e => exact absurd (h.line.symm.trans (Link.line_eq_lost.mpr ⟨hc, hb⟩)) (hl e)
    exact { h with line := hline }
  · exact { h with line := rfl, fault := fun _ he => by cases he }

lemma Refines.poisoned (h : Refines geo s p) : Refines geo s.poisoned { p with line := .down } :=
  { h with
    line := rfl
    session := fun ht => ⟨(h.session ht).1, (h.session ht).2.1, fun _ hb => by cases hb⟩ }

lemma Refines.failed {e : NetError} (h : Refines geo s p) (he : e ≠ .invalidArgument) :
    Agrees geo (s.failed e) (.error (netToError e), { p with line := .down }) := by
  rw [Link.failed, Link.fault, if_neg he]
  exact ⟨rfl, h.poisoned⟩

lemma Refines.lost {c : LinkCall} {e : NetError} (h : Refines geo s p) (hl : p.line = .lost e)
    (hop : ∀ e', c ≠ .drop e') : Agrees geo (s.call b c) (.error (netToError e), { p with line := .down }) := by
  obtain ⟨hc, he⟩ := Link.line_eq_lost.mp (h.line.trans hl)
  rw [Link.call_broken hc he hop]
  have hsent : Refines geo { s with nextRid := s.nextRid + 1 } p := { h with }
  exact hsent.failed (h.fault e he)

lemma Ready.broken (h : Ready geo s p) : s.broken = none := (Link.line_eq_up.mp (h.line.trans h.up)).2

lemma Refines.opened (h : Refines geo s p) (ht : p.replica.term ≠ 0) : Opened s.srv p :=
  ⟨h.replica, (h.session ht).1, (h.session ht).2.1⟩

lemma serve_helo {volId : List UInt8} (hb : Cold geo b) (ho : Opened v p) (hc : p.Current hdr)
    (hvol : volId.length = 16) : v.serve b .helo (HeloReq.encode ⟨volId, hdr.clientToken, hdr.term⟩) [] =
      (statusReply .heloRsp Wire.ok,
        { v with replica := p.replica, sessionTerm := hdr.term, sessionActive := true }) := by
  have hdec : HeloReq.decode (HeloReq.encode ⟨volId, hdr.clientToken, hdr.term⟩) = _ := HeloReq.decode_encode hvol
  -- the login is applied once more, with the token and the term that the replica has
  have hsame : v.replica.coldApplyLogin hdr.clientToken v.sessionTerm = p.replica := by
    rw [ho.term, hc.token, ho.replica]
    rfl
  simp only [CraftTcpServer.serve, ClientOp.decode, hdec, CraftTcpServer.handle, CraftTcpServer.onHelo,
    CraftTcpServer.heloStatus, hb.raftEnabled, hb.establish, coldEstablish, hsame, Bool.false_eq_true, if_false,
    if_true]

lemma Ready.ensureBound (h : Ready geo s.ensureConnected p) (hb : Cold geo b) (hc : p.Current hdr) : ∃ s' : Link,
    s.ensureBound b hdr.term hdr.clientToken = (none, s') ∧ Ready geo s' p := by
  rw [Link.ensureBound]
  generalize s.ensureConnected = s at h
  by_cases hbound : s.bound = some hdr.term
  · exact ⟨s, if_pos hbound, h⟩
  · have hsend : Sendable s.srv.geo.maxTx .helo (HeloReq.encode ⟨s.volId, hdr.clientToken, hdr.term⟩) [] :=
      .of_nil (by simp [HeloReq.encode, h.volId]; rfl)
    obtain ⟨m, hm, hcar⟩ := Link.exchange_eq h.broken hsend (serve_helo hb (h.opened hc.loggedIn) hc h.volId)
      (fits_statusReply _ rfl) (Nat.zero_le _)
    have hok : m.hdr.status = Wire.ok := hcar.status
    simp only [if_neg hbound, hm, hok, ne_eq, not_true_eq_false, if_false]
    refine ⟨_, rfl, { h with replica := rfl, session := ?_ }⟩
    intro _
    refine ⟨rfl, hc.term, fun term hb => ?_⟩
    exact (Option.some.inj hb).symm.trans hc.term

structure Kept (p p' : Direct) : Prop where
  nextTerm : p'.nextTerm = p.nextTerm
  line : p'.line = p.line
  term : p'.replica.term = p.replica.term
  sized : Sized p'.replica
  lsns : LsnPair.Ranged p'.replica.peekLsns

lemma Refines.move {p' : Direct} (h : Refines geo s p) (hk : Kept p p') :
    Refines geo { s with nextRid := s.nextRid + 1, srv := { s.srv with replica := p'.replica } } p' where
  geo := h.geo
  replica := rfl
  nextTerm := h.nextTerm.trans hk.nextTerm.symm
  volId := h.volId
  line := h.line.trans hk.line.symm
  fault := h.fault
  session ht := by
    rw [hk.term] at ht ⊢
    exact h.session ht
  sized := hk.sized
  lsns := hk.lsns

section Verbs

variable {p' : Direct} {op : ClientOp} {opHeader body : List UInt8}

lemma Ready.io {decode : Message → Except NetError LinkAnswer} {rsp : Reply} {res : LinkResult}
    (h : Ready geo s.ensureConnected p) (hb : Cold geo b) (hc : p.Current hdr)
    (hsend : Sendable geo.maxTx op opHeader body) (hk : Kept p p')
    (hserve : ∀ v, Opened v p → v.serve b op opHeader body = (rsp, { v with replica := p'.replica }))
    (hfits : rsp.Fits op.rsp) (hle : rsp.body.length ≤ kMaxTx.toNat)
    (hdec : ∀ m, Carries m rsp → ∃ ans, decode m = .ok ans ∧
      (if m.hdr.status ≠ Wire.ok then .error (statusToError m.hdr.status) else .ok ans) = res) :
    Agrees geo (s.io b hdr op opHeader body decode) (res, p') := by
  obtain ⟨s', hbound, h⟩ := h.ensureBound hb hc
  rw [← h.geo] at hsend
  obtain ⟨m, hm, hcar⟩ := Link.exchange_eq h.broken hsend (hserve s'.srv (h.opened hc.loggedIn)) hfits hle
  obtain ⟨ans, hdec, hans⟩ := hdec m hcar
  simp only [Link.io, hbound, hm, hdec]
  exact ⟨hans, h.move hk⟩

section Kept

lemma inI64_max {a c : ℤ} (ha : InI64 a) (hc : InI64 c) : InI64 (max a c) :=
  ⟨ha.1.trans (le_max_left a c), max_lt ha.2 hc.2⟩

lemma ranged_applyUpTo {r : MemReplica} {target : ℤ} (h : LsnPair.Ranged r.peekLsns) (ht : InI64 target) :
    LsnPair.Ranged (r.applyUpTo target).peekLsns := by
  have ha := MemReplica.applies_applyUpTo r target
  refine ⟨⟨h.1.1.trans ha.commit_le, ?_⟩, ?_⟩
  · exact (MemReplica.applyUpTo_commit_le r target).trans_lt (inI64_max h.1 ht).2
  · change InI64 (r.applyUpTo target).lastAppendLsn
    rw [ha.lastAppendLsn]
    exact h.2

lemma Refines.kept (h : Refines geo s p) : Kept p p := ⟨rfl, rfl, rfl, h.sized, h.lsns⟩

lemma Refines.kept_doWrite {dlsn : ℤ} (h : Refines geo s p) (hc : p.Current hdr) (hd : InI64 dlsn)
    (addr len : UInt64) (data : Option (List UInt8)) :
    Kept p (p.perform .lsns (p.replica.doWrite hdr dlsn addr len data)).2 := by
  have hsized := h.sized.perform (a := .write hdr dlsn addr len data) fun _ _ _ ha => by cases ha
  rw [MemReplica.perform] at hsized
  cases hw : p.replica.doWrite hdr dlsn addr len data with
  | error e => exact h.kept
  | ok out =>
    obtain ⟨l, r'⟩ := out
    rw [hw] at hsized
    obtain ⟨-, -, -, rfl, -⟩ := MemReplica.doWrite_ok hw
    refine ⟨rfl, rfl, MemReplica.applyUpTo_term _ _, hsized, ranged_applyUpTo ?_ hc.ranged.1⟩
    exact ⟨h.lsns.1, inI64_max h.lsns.2 hd⟩

lemma Refines.kept_applyUpTo (h : Refines geo s p) {target : ℤ} (ht : InI64 target) :
    Kept p { p with replica := p.replica.applyUpTo target } :=
  ⟨rfl, rfl, MemReplica.applyUpTo_term _ _, h.sized.applyUpTo target, ranged_applyUpTo h.lsns ht⟩

lemma Refines.kept_doResolveLocal {upto : ℤ} {res : ResolutionResult} {r' : MemReplica} (h : Refines geo s p)
    (hd : InI64 upto) (hr : p.replica.doResolveLocal hdr upto = .ok (res, r')) : Kept p { p with replica := r' } := by
  have hsized := h.sized.perform (a := .resolveLocal hdr upto) fun _ _ _ ha => by cases ha
  rw [MemReplica.perform, hr] at hsized
  simp only [MemReplica.doResolveLocal] at hr
  split_ifs at hr
  cases hr
  refine ⟨rfl, rfl, MemReplica.applyUpTo_term _ _, hsized, ranged_applyUpTo ?_ hd⟩
  exact ⟨h.lsns.1, inI64_max h.lsns.2 hd⟩

end Kept

lemma Opened.stamps (ho : Opened v p) (hc : p.Current hdr) :
    v.hdr hdr.commitLsn hdr.allCommittedLsn = ⟨hdr.term, hdr.commitLsn, hdr.allCommittedLsn, 0⟩ := by
  rw [TcpServer.hdr, ho.term, ← hc.term]

section Lsns

def lsnAnswer (op : Op) (refused : LsnPair) : Except ErrorCond (LsnPair × MemReplica) → Reply
  | .ok (l, _) => lsnReply op Wire.ok l
  | .error e => lsnReply op (toWireStatus e) refused

lemma Ready.lsnIo {refused : LsnPair} {out : Except ErrorCond (LsnPair × MemReplica)}
    (h : Ready geo s.ensureConnected p) (hb : Cold geo b) (hc : p.Current hdr)
    (hsend : Sendable geo.maxTx op opHeader body) (hk : Kept p (p.perform .lsns out).2)
    (hserve : ∀ v, Opened v p → v.serve b op opHeader body =
      (lsnAnswer op.rsp refused out, { v with replica := (p.perform .lsns out).2.replica }))
    (hop : opHdrSize op.rsp.code = some 16) (hok : ∀ l r, out = .ok (l, r) → l = r.peekLsns)
    (herr : ∀ e, out = .error e → e = .invalidArgument) :
    Agrees geo (s.io b hdr op opHeader body fun m => .ok (.lsns (decodeLsnPair m.opHeader))) (p.perform .lsns out) := by
  cases out with
  | error e =>
    obtain rfl := herr e rfl
    refine h.io hb hc hsend hk hserve (fits_lsnReply _ _ hop) (Nat.zero_le _) fun m hm => ⟨_, rfl, ?_⟩
    rw [hm.status]
    rfl
  | ok out =>
    obtain ⟨l, r⟩ := out
    obtain rfl := hok l r rfl
    refine h.io hb hc hsend hk hserve (fits_lsnReply _ _ hop) (Nat.zero_le _) fun m hm => ⟨_, rfl, ?_⟩
    have hpair : decodeLsnPair (encodeLsns r.peekLsns) = r.peekLsns := decodeLsnPair_encode hk.lsns
    rw [hm.status, hm.opHeader, lsnAnswer, lsnReply, hpair]
    rfl

variable {dlsn : ℤ} {addr len : UInt64} {data : Option (List UInt8)}

lemma serve_write (ho : Opened v p) (hc : p.Current hdr) (hd : InI64 dlsn) (hdata : payload body = data) :
    v.serve b .write (WriteReq.encode ⟨Link.reqHdr hdr, dlsn, addr, len⟩) body =
      (lsnAnswer .writeRsp p.replica.peekLsns (p.replica.doWrite hdr dlsn addr len data),
        { v with replica := (p.perform .lsns (p.replica.doWrite hdr dlsn addr len data)).2.replica }) := by
  have hact : ¬ ¬ v.sessionActive = true := not_not.mpr ho.active
  have hout : v.replica.doWrite (v.hdr hdr.commitLsn hdr.allCommittedLsn) dlsn addr len (payload body) =
      p.replica.doWrite hdr dlsn addr len data := by
    rw [ho.stamps hc, ho.replica, hdata]
    rfl
  rw [CraftTcpServer.serve, ClientOp.decode, WriteReq.decode_encode hc.ranged hd]
  simp only [CraftTcpServer.handle, CraftTcpServer.onWrite, TcpServer.onWrite, if_neg hact, Link.reqHdr, hout,
    ← ho.replica]
  split <;> rename_i hw <;> rw [hw]
  · rfl
  · rw [Direct.perform, ← ho.replica]
    rfl

lemma doWrite_error {e : ErrorCond} (hc : p.Current hdr)
    (h : p.replica.doWrite hdr dlsn addr len data = .error e) : e = .invalidArgument := by
  have hterm : ¬ hdr.term ≠ p.replica.term := not_not.mpr hc.term
  simp only [MemReplica.doWrite, if_neg hterm] at h
  split_ifs at h <;> cases h <;> rfl

lemma Ready.write (h : Ready geo s.ensureConnected p) (hb : Cold geo b)
    (hok : p.Ok geo (.write hdr dlsn addr len data)) :
    Agrees geo (s.write b hdr dlsn addr len data) (p.operate geo (.write hdr dlsn addr len data)) := by
  obtain ⟨hc, hd, hdata, hlen⟩ := hok
  have hpay : payload (data.getD []) = data := by
    cases data with
    | none => rfl
    | some bytes => exact if_neg fun hnil => hdata (congrArg some hnil)
  have hsend : Sendable geo.maxTx .write (WriteReq.encode ⟨Link.reqHdr hdr, dlsn, addr, len⟩) (data.getD []) :=
    ⟨by rw [WriteReq.length_encode]; rfl, fun _ => rfl, hlen⟩
  refine h.lsnIo hb hc hsend (h.kept_doWrite hc hd addr len data) (fun v ho => serve_write ho hc hd hpay) rfl
    (fun l r hw => ?_) fun e => doWrite_error hc
  obtain ⟨-, -, -, -, rfl⟩ := MemReplica.doWrite_ok hw
  rfl

lemma serve_keepalive (ho : Opened v p) (hc : p.Current hdr) :
    v.serve b .keepalive (Link.reqHdr hdr).encode [] = (lsnAnswer .keepaliveRsp ⟨-1, -1⟩ (p.replica.doKeepAlive hdr),
      { v with replica := (p.perform .lsns (p.replica.doKeepAlive hdr)).2.replica }) := by
  have hact : ¬ ¬ v.sessionActive = true := not_not.mpr ho.active
  have hout : v.replica.doKeepAlive (v.hdr hdr.commitLsn hdr.allCommittedLsn) = p.replica.doKeepAlive hdr := by
    rw [ho.stamps hc, ho.replica]
    rfl
  rw [CraftTcpServer.serve, ClientOp.decode, ReqHdr.decode_encode hc.ranged]
  simp only [CraftTcpServer.handle, CraftTcpServer.onKeepAlive, TcpServer.onKeepAlive, if_neg hact, Link.reqHdr, hout]
  split <;> rename_i hk <;> rw [hk]
  · rfl
  · rw [Direct.perform, ← ho.replica]
    rfl

lemma Ready.keepAlive (h : Ready geo s.ensureConnected p) (hb : Cold geo b) (hc : p.Current hdr) :
    Agrees geo (s.keepAlive b hdr) (p.operate geo (.keepAlive hdr)) := by
  have hout : p.replica.doKeepAlive hdr =
      .ok ((p.replica.applyUpTo hdr.commitLsn).peekLsns, p.replica.applyUpTo hdr.commitLsn) :=
    if_neg (not_not.mpr hc.term)
  have hkept : Kept p (p.perform .lsns (p.replica.doKeepAlive hdr)).2 := by
    rw [hout]
    exact h.kept_applyUpTo hc.ranged.1
  refine h.lsnIo hb hc (.of_nil (by rw [ReqHdr.length_encode]; rfl)) hkept (fun v ho => serve_keepalive ho hc) rfl
    (fun l r hk => ?_) fun e he => ?_
  · cases hout.symm.trans hk
    rfl
  · cases hout.symm.trans he

end Lsns

section Resolve

variable {upto : ℤ}

lemma serve_resolve {res : ResolutionResult} {r : MemReplica} (ho : Opened v p) (hc : p.Current hdr)
    (hd : InI64 upto) (hres : p.replica.doResolveLocal hdr upto = .ok (res, r)) :
    v.serve b .resolve (ResolveReq.encode ⟨Link.reqHdr hdr, upto⟩) [] =
      (resolveReply Wire.ok res, { v with replica := r }) := by
  have hact : ¬ ¬ v.sessionActive = true := not_not.mpr ho.active
  have hout : v.replica.doResolveLocal (v.hdr hdr.commitLsn hdr.allCommittedLsn) upto = .ok (res, r) := by
    rw [ho.stamps hc, ho.replica]
    exact hres
  rw [CraftTcpServer.serve, ClientOp.decode, ResolveReq.decode_encode hc.ranged hd]
  simp only [CraftTcpServer.handle, CraftTcpServer.onResolve, TcpServer.onResolve, if_neg hact, Link.reqHdr, hout]

lemma Ready.requestResolution (h : Ready geo s.ensureConnected p) (hb : Cold geo b)
    (hok : p.Ok geo (.resolve hdr upto)) :
    Agrees geo (s.requestResolution b hdr upto) (p.operate geo (.resolve hdr upto)) := by
  obtain ⟨hc, hd, hlen⟩ := hok
  obtain ⟨res, r, hres⟩ : ∃ res r, p.replica.doResolveLocal hdr upto = .ok (res, r) :=
    ⟨_, _, if_neg (not_not.mpr hc.term)⟩
  obtain ⟨hupto, hempties, -⟩ := doResolveLocal_ok hres
  have hranged : ∀ d ∈ res.emptySlots, InI64 d := by
    intro d hmem
    rw [hempties] at hmem
    obtain ⟨h₁, h₂⟩ := mem_dlsns.mp (List.mem_of_mem_filter hmem)
    exact ⟨h.lsns.1.1.trans h₁.le, h₂.trans_lt hd.2⟩
  have hcount : res.emptySlots.length * 8 ≤ kMaxTx.toNat := by
    have hle := List.length_filter_le (fun d => (p.replica.journal.find d).all MemJournalSlot.isEmpty)
      (MemReplica.dlsns p.replica.commitLsn upto)
    rw [← hempties, length_dlsns] at hle
    omega
  have hmax : kMaxTx.toNat < 2 ^ 32 := kMaxTx.toNat_lt
  rw [Direct.operate, hres]
  refine h.io hb hc (.of_nil (by rw [ResolveReq.length_encode]; rfl)) (h.kept_doResolveLocal hd hres)
    (fun v ho => serve_resolve ho hc hd hres) (fits_resolveReply _ _ (by omega)) ?_ fun m hm => ?_
  · rw [resolveReply, length_flatMap_const _ fun z _ => length_encodeI64 z]
    exact hcount
  · have hst : m.hdr.status = Wire.ok := hm.status
    have hrr : ResolveRsp.decode m.opHeader = ⟨res.resolvedUpto, .ofNat res.emptySlots.length⟩ := by
      rw [hm.opHeader]
      exact ResolveRsp.decode_encode (by rw [hupto]; exact hd)
    have hnat : (UInt32.ofNat res.emptySlots.length).toNat = res.emptySlots.length :=
      UInt32.toNat_ofNat_of_lt' (by simp only [UInt32.size]; omega)
    obtain ⟨ds, hds, hmap⟩ := Option.map_eq_some_iff.mp (decodeLsns_encodeI64 hranged)
    have hbody : m.body = res.emptySlots.flatMap encodeI64 := hm.body
    refine ⟨.resolution res, ?_, ?_⟩
    · simp only [hst, hrr, hnat, hbody, hds, hmap, ne_eq, not_true_eq_false, if_false]
    · simp [hst]

end Resolve

section Read

variable {readLsn : ℤ} {addr len : UInt64} {dest : SgList}

lemma clientRead_lsns {reply : List UInt8} {bound : UInt32} {d d' : List UInt8} {rsp : ReadReply} {m : Message}
    (h : clientRead reply bound addr len d = .ok (rsp, d')) (hm : parseMessage reply bound {} = .ok m) :
    rsp.lsns = decodeLsnPair m.opHeader := by
  simp only [clientRead, hm] at h
  split_ifs at h
  · cases h
    rfl
  · split at h
    case h_1 => cases h
    case h_2 =>
      split at h
      case h_1 => cases h
      case h_2 =>
        split at h
        case h_1 => cases h
        case h_2 =>
          cases h
          rfl

lemma tcpRead_lsns {reply : List UInt8} {bound : UInt32} {dest' : SgList} {rsp : ReadReply} {m : Message}
    (h : tcpRead reply bound addr len dest = .ok (rsp, dest')) (hm : parseMessage reply bound {} = .ok m) :
    rsp.lsns = decodeLsnPair m.opHeader := by
  simp only [tcpRead] at h
  split at h
  case h_1 => cases h
  case h_2 rsp' d' hread =>
    have hlsns := clientRead_lsns hread hm
    split_ifs at h <;> cases h <;> exact hlsns

lemma tcpRead_readReply {r : MemReplica} (h : Sized r) (ht : hdr.term = r.term)
    (hl : LsnPair.Ranged (r.applyUpTo hdr.commitLsn).peekLsns) (hend : addr.toNat + len.toNat < 2 ^ 64)
    (hsize : len ≤ dest.size) (hb : len.toNat ≤ dest.bytes.length)
    (hlen : len.toNat + len.toNat / r.pageSize.toNat * 24 ≤ kMaxTx.toNat) (requestId : UInt16) :
    tcpRead ((readReply r hdr (readRequest hdr readLsn addr len)).1.bytes requestId) kMaxTx addr len dest =
      (r.doReadInto hdr readLsn addr len dest).map fun out => (⟨Wire.ok, out.1.lsns, out.1.extents⟩, out.2.1) := by
  have hmax : kMaxTx.toNat < 2 ^ 32 := kMaxTx.toNat_lt
  have hfits := fits_readReply r hdr (readRequest hdr readLsn addr len) (hlen.trans_lt hmax)
  have hle := (length_readReply_le r hdr (readRequest hdr readLsn addr len)).trans hlen
  by_cases hm : r.misaligned addr len = true
  · have hrefused : ∀ dest : SgList, r.doReadInto hdr readLsn addr len dest = .error .invalidArgument := by
      intro dest
      simp [MemReplica.doReadInto, MemReplica.doRead, hm, Except.map]
    rw [hrefused dest]
    have hread := clientRead_refused (hrefused _) kMaxTx requestId
    simp only [tcpRead]
    split_ifs with hin
    all_goals
      obtain ⟨lsns, hr⟩ := hread _
      rw [hr]
      rfl
  · have hm := Bool.not_eq_true _ ▸ hm
    have hn : len.toNat / r.pageSize.toNat < 2 ^ 32 := (Nat.div_le_self _ _).trans_lt (by omega)
    have ha := MemReplica.applies_applyUpTo r hdr.commitLsn
    have hm' : (r.applyUpTo hdr.commitLsn).misaligned addr len = false := by rwa [misaligned_applyUpTo]
    have hn' : len.toNat / (r.applyUpTo hdr.commitLsn).pageSize.toNat < 2 ^ 32 := by rwa [ha.pageSize]
    obtain ⟨hbytes, hshape⟩ := fill_range (h.applyUpTo hdr.commitLsn) hm' hn' hb readLsn
    obtain ⟨lsns, iovs, hread, hflat, hshape'⟩ := tcpRead_eq
      (length_rangeBytes (h.applyUpTo hdr.commitLsn) hm' hn') hb
      fun d hd => clientRead_eq h hm hend ht hn hle requestId hd
    have hiovs : iovs =
        (dest.fill (((r.applyUpTo hdr.commitLsn).readRange readLsn addr len).1.map Block.page)).iovs := by
      apply List.eq_iff_flatten_eq.mpr
      exact ⟨hflat.trans hbytes.symm, hshape'.trans hshape.symm⟩
    -- the commit points are those of the reply's header
    obtain ⟨m, hparse, -, -, hheader, -⟩ := hfits.parse hle requestId
    have hlsns : lsns = (r.applyUpTo hdr.commitLsn).peekLsns := by
      have hpair : lsns = decodeLsnPair m.opHeader := tcpRead_lsns hread hparse
      rw [hpair, hheader, readReply_eq h hm ht hn]
      exact decodeLsnPair_readRsp hl
    rw [hread, MemReplica.doReadInto_eq hm ht hsize, hiovs, hlsns]
    rfl

lemma serve_read (ho : Opened v p) (hc : p.Current hdr) (hd : InI64 readLsn) :
    v.serve b .read (readRequest hdr readLsn addr len).encode [] =
      ((readReply p.replica hdr (readRequest hdr readLsn addr len)).1,
        { v with replica := (readReply p.replica hdr (readRequest hdr readLsn addr len)).2 }) := by
  have hact : ¬ ¬ v.sessionActive = true := not_not.mpr ho.active
  have hstamped := ho.stamps hc
  rw [CraftTcpServer.serve, ClientOp.decode, ReadReq.decode_encode hc.ranged hd]
  simp only [CraftTcpServer.handle, CraftTcpServer.onRead, if_neg hact, readRequest, hstamped, ho.replica]
  rfl

lemma doRead_size {r : MemReplica} {size : UInt64} (h : len ≤ size) :
    r.doRead hdr readLsn addr len size = r.doRead hdr readLsn addr len len := by
  have hlt : ¬ size < len := UInt64.not_lt.mpr h
  have hself : ¬ len < len := UInt64.not_lt.mpr (UInt64.le_refl len)
  simp only [MemReplica.doRead, if_neg hlt, if_neg hself]

lemma readReply_replica (r : MemReplica) : (readReply r hdr (readRequest hdr readLsn addr len)).2 =
    ((r.doRead hdr readLsn addr len len).map Prod.snd).toOption.getD r := by
  simp only [readReply, readRequest, MemReplica.doReadInto]
  cases r.doRead hdr readLsn addr len len <;> rfl

lemma Ready.read (h : Ready geo s.ensureConnected p) (hb : Cold geo b)
    (hok : p.Ok geo (.read hdr readLsn addr len dest)) :
    Agrees geo (s.read b hdr readLsn addr len dest) (p.operate geo (.read hdr readLsn addr len dest)) := by
  obtain ⟨hc, hd, hend, hsize, hbytes, hlen⟩ := hok
  obtain ⟨s', hbound, h⟩ := h.ensureBound hb hc
  have hsend : Sendable s'.srv.geo.maxTx .read (readRequest hdr readLsn addr len).encode [] :=
    .of_nil (by rw [ReadReq.length_encode]; rfl)
  have hreply := Link.send_eq (b := b) h.broken hsend (serve_read (h.opened hc.loggedIn) hc hd)
  have hkept := h.kept_applyUpTo hc.ranged.1
  have hread : tcpRead ((readReply p.replica hdr (readRequest hdr readLsn addr len)).1.bytes s'.nextRid) kMaxTx addr len
      dest = _ := tcpRead_readReply h.sized hc.term hkept.lsns hend hsize hbytes hlen s'.nextRid
  simp only [Link.read, hbound, hreply, hread, Direct.operate, MemReplica.doReadInto, doRead_size hsize]
  cases hr : p.replica.doRead hdr readLsn addr len len with
  | error e =>
    -- a refusal is a reply that decodes, so the connection stays
    have hrefused : p.replica.doReadInto hdr readLsn addr len ⟨len, [List.replicate len.toNat 0]⟩ = .error e := by
      rw [MemReplica.doReadInto, hr]
      rfl
    obtain ⟨lsns, hclient⟩ := clientRead_refused hrefused kMaxTx s'.nextRid (List.replicate len.toNat 0)
    rw [readReply_replica, hr, hclient]
    exact ⟨rfl, h.move h.kept⟩
  | ok out =>
    obtain ⟨res, r'⟩ := out
    rw [readReply_replica, hr]
    obtain ⟨-, -, rfl, rfl⟩ := MemReplica.doRead_ok hr
    exact ⟨rfl, h.move hkept⟩

end Read

section Login

variable {clientToken : UInt64}

lemma Ready.logout (h : Ready geo s.ensureConnected p) (ht : p.replica.term ≠ 0) :
    Agrees geo (s.logout b) (p.operate geo .logout) := by
  rw [Link.logout]
  generalize s.ensureConnected = s at h
  have hserve : s.srv.serve b .logout (ReqHdr.encode ⟨-1, -1⟩) [] = (statusReply .logoutRsp Wire.ok,
      { s.srv with sessionActive := false, replica := s.srv.replica.coldApplyLogout }) :=
    if_pos (h.opened ht).active
  obtain ⟨m, hm, hcar⟩ := Link.exchange_eq h.broken (.of_nil (by rw [ReqHdr.length_encode]; rfl)) hserve
    (fits_statusReply _ rfl) (Nat.zero_le _)
  have hok : m.hdr.status = Wire.ok := hcar.status
  simp only [hm, hok, ne_eq, not_true_eq_false, if_false]
  refine ⟨rfl, { h with replica := ?_, session := fun hterm => absurd rfl hterm, sized := ?_, lsns := h.lsns }⟩
  · rw [h.replica]
    rfl
  · exact ⟨h.sized.slots, h.sized.cells⟩

structure Member.Framed (m : Member) : Prop where
  id : m.id.length = 16
  addr : m.addr.length < 2 ^ 16

lemma Ready.login (h : Ready geo s.ensureConnected p) (hb : Cold geo b) (hmember : Member.Framed geo.member)
    (hterm : p.nextTerm + 1 ≠ 0) : Agrees geo (s.login b clientToken) (p.operate geo (.login clientToken)) := by
  have hvol : s.ensureConnected.volId = s.volId := by
    rw [Link.ensureConnected]
    split_ifs <;> rfl
  rw [Link.login, ← hvol]
  generalize s.ensureConnected = s at h
  set term := p.nextTerm + 1 with hnext
  have hdec : LoginReq.decode (LoginReq.encode ⟨s.volId, clientToken⟩) = _ := LoginReq.decode_encode h.volId
  let rsp : LoginRsp := ⟨term, p.replica.lastAppendLsn, geo.capacity, geo.lbaSize, geo.maxTx, 1, nilId⟩
  have hserve : s.srv.serve b .login (LoginReq.encode ⟨s.volId, clientToken⟩) [] =
      (⟨.loginRsp, Wire.ok, rsp.encode, [geo.member].flatMap putMember⟩,
        { s.srv with
          replica := p.replica.coldApplyLogin clientToken term
          nextTerm := term
          sessionTerm := term
          sessionActive := true }) := by
    simp only [CraftTcpServer.serve, ClientOp.decode, hdec, CraftTcpServer.handle, CraftTcpServer.onLogin, h.nextTerm,
      ← hnext, h.replica, h.geo, hb.establish]
    rfl
  have hbody : ([geo.member].flatMap putMember).length ≤ kMaxTx.toNat := by
    have haddr := hmember.addr
    have hmax : kMaxTx.toNat = 548864 := by decide +kernel
    rw [List.flatMap_singleton, length_putMember hmember.id]
    omega
  obtain ⟨m, hm, hcar⟩ := Link.exchange_eq h.broken (.of_nil (by simp [LoginReq.encode, h.volId]; rfl)) hserve
    ⟨rfl, by rw [LoginRsp.length_encode]; rfl, fun _ => rfl, hbody.trans_lt kMaxTx.toNat_lt⟩ hbody
  have hlr : LoginRsp.decode m.opHeader = rsp := by
    rw [hcar.opHeader]
    exact LoginRsp.decode_encode h.lsns.2 (by simp [rsp, nilId])
  have hmembers : decodeMembers m.body (1 : UInt32).toNat = some [geo.member] := by
    have hframed : ∀ x ∈ [geo.member], x.id.length = 16 ∧ x.addr.length < 2 ^ 16 := by
      intro x hx
      rw [List.mem_singleton.mp hx]
      exact ⟨hmember.id, hmember.addr⟩
    have hall := decodeMembers_flatMap hframed []
    rw [List.append_nil] at hall
    rw [hcar.body]
    exact hall
  have hpos : 0 < term := UInt64.pos_iff_ne_zero.mpr hterm
  simp only [hm, hlr, rsp, hmembers, if_pos hpos]
  refine ⟨rfl, ?_⟩
  exact {
    geo := h.geo
    replica := rfl
    nextTerm := rfl
    volId := h.volId
    line := h.line
    fault := h.fault
    session := fun _ => ⟨rfl, rfl, fun t ht => (Option.some.inj ht).symm⟩
    sized := ⟨h.sized.slots, h.sized.cells⟩
    lsns := h.lsns }

end Login

lemma Ready.operate {c : LinkCall} (h : Ready geo s.ensureConnected p) (hb : Cold geo b)
    (hmember : Member.Framed geo.member) (hop : ∀ e, c ≠ .drop e) (hok : p.Ok geo c) :
    Agrees geo (s.call b c) (p.operate geo c) := by
  cases c with
  | login clientToken => exact h.login hb hmember hok
  | write hdr dlsn addr len data => exact h.write hb hok
  | read hdr readLsn addr len dest => exact h.read hb hok
  | keepAlive hdr => exact h.keepAlive hb hok
  | resolve hdr upto => exact h.requestResolution hb hok
  | logout => exact h.logout hok
  | drop e => exact absurd rfl (hop e)

lemma Refines.drop {e : NetError} (h : Refines geo s p) (hok : p.Ok geo (.drop e)) :
    Agrees geo (s.call b (.drop e)) (p.call geo (.drop e)) := by
  have hline : Link.line { s with broken := some e } = p.line.drop e := by
    rw [← h.line, Link.line, Link.line]
    cases s.connected <;> cases s.broken <;> rfl
  refine ⟨rfl, { h with line := hline, fault := ?_ }⟩
  rintro _ ⟨⟩ rfl
  cases List.mem_cons.mp hok with
  | inl h => cases h
  | inr h => exact absurd h (by decide)

lemma Direct.call_lost {c : LinkCall} {e : NetError} (hl : p.line = .lost e) (hop : ∀ e', c ≠ .drop e') :
    p.call geo c = (.error (netToError e), { p with line := .down }) := by
  cases c with
  | drop e' => exact absurd rfl (hop e')
  | _ => simp only [call, hl]

lemma Direct.call_up {c : LinkCall} (hl : ∀ e, p.line ≠ .lost e) (hop : ∀ e', c ≠ .drop e') :
    p.call geo c = operate geo { p with line := .up } c := by
  cases hline : p.line with
  | lost e => exact absurd hline (hl e)
  | _ =>
    cases c with
    | drop e' => exact absurd rfl (hop e')
    | _ => simp only [call, hline]

lemma Direct.Current.reach (h : p.Current hdr) : Current { p with line := .up } hdr :=
  ⟨h.term, h.token, h.loggedIn, h.ranged⟩

lemma Direct.Ok.reach {c : LinkCall} (h : p.Ok geo c) : Ok geo { p with line := .up } c := by
  cases c with
  | login | logout | drop => exact h
  | keepAlive => exact Current.reach h
  | write | read | resolve => exact ⟨Current.reach h.1, h.2⟩

lemma Refines.call {c : LinkCall} (h : Refines geo s p) (hb : Cold geo b) (hmember : Member.Framed geo.member)
    (hok : p.Ok geo c) : Agrees geo (s.call b c) (p.call geo c) := by
  by_cases hop : ∃ e, c = .drop e
  · obtain ⟨e, rfl⟩ := hop
    exact h.drop hok
  have hop := not_exists.mp hop
  by_cases hl : ∃ e, p.line = .lost e
  · obtain ⟨e, hl⟩ := hl
    rw [Direct.call_lost hl hop]
    exact h.lost hl hop
  · have hl := not_exists.mp hl
    rw [Direct.call_up hl hop]
    exact (h.ensureConnected hl).operate hb hmember hop hok.reach

end Verbs

/-- Over the wire a client gets the answers that the replica itself would give it, over any number of sessions: LOGIN
and LOGOUT, writes, reads, keep-alives, rounds and refusals. Where the connection breaks between two operations, the
second one fails and leaves the replica alone, and the one after it is answered as before. -/
theorem wire_sessions_eq_direct {volId : List UInt8} {calls : List LinkCall} (hvol : volId.length = 16)
    (hmember : Member.Framed geo.member) {createVolume : List UInt8 → List Member → Except ErrorCond Unit}
    (hv : Mealy.Valid (Direct.call geo) (Direct.Ok geo) ⟨.new geo.lbaSize, 0, .down⟩ calls) :
    let link := Mealy.run (Link.call (coldBackend geo.member createVolume)) (.new volId geo) calls
    let direct := Mealy.run (Direct.call geo) ⟨.new geo.lbaSize, 0, .down⟩ calls
    link.1 = direct.1 ∧ link.2.srv.replica = direct.2.replica := by
  have hcold : Cold geo (coldBackend geo.member createVolume) := ⟨rfl, rfl⟩
  have hstep : ∀ (s : Link) (p : Direct) (c : LinkCall), Refines geo s p → p.Ok geo c →
      Agrees geo (s.call (coldBackend geo.member createVolume) c) (p.call geo c) :=
    fun s p c h hok => h.call hcold hmember hok
  have hsim := Mealy.run_simulates hstep (refines_new hvol) hv
  exact ⟨hsim.1, hsim.2.replica⟩

section Runs

instance decidableCurrent (p : Direct) (hdr : ClientHdr) : Decidable (p.Current hdr) :=
  decidable_of_iff (hdr.term = p.replica.term ∧ hdr.clientToken = p.replica.clientToken ∧ p.replica.term ≠ 0 ∧
      InI64 hdr.commitLsn ∧ InI64 hdr.allCommittedLsn)
    ⟨fun h => ⟨h.1, h.2.1, h.2.2.1, h.2.2.2⟩, fun h => ⟨h.term, h.token, h.loggedIn, h.ranged⟩⟩

instance decidableOk (geo : ServerGeometry) (p : Direct) : ∀ c : LinkCall, Decidable (p.Ok geo c)
  | .login _ | .logout => inferInstanceAs (Decidable (_ ≠ _))
  | .write .. => inferInstanceAs (Decidable (_ ∧ _ ∧ _ ∧ _))
  | .read .. => inferInstanceAs (Decidable (_ ∧ _ ∧ _ ∧ _ ∧ _ ∧ _))
  | .keepAlive hdr => decidableCurrent p hdr
  | .resolve .. => inferInstanceAs (Decidable (_ ∧ _ ∧ _))
  | .drop e => inferInstanceAs (Decidable (e ∈ _))

def linkGeometry : ServerGeometry := ⟨64, 2, 1024, ⟨List.replicate 16 1, [97]⟩⟩

def twoSessions : List LinkCall :=
  [.login 7, .write ⟨1, -1, -1, 7⟩ 0 0 2 (some [5, 6]), .drop .closed, .write ⟨1, -1, -1, 7⟩ 2 2 2 none,
    .write ⟨1, -1, -1, 7⟩ 2 2 2 none, .keepAlive ⟨1, 0, -1, 7⟩, .write ⟨1, 0, -1, 7⟩ 3 1 2 (some [8, 9]),
    .resolve ⟨1, 0, 0, 7⟩ 2, .drop .send, .read ⟨1, 2, 0, 7⟩ 2 0 4 ⟨4, [[9], [9, 9, 9]]⟩,
    .read ⟨1, 2, 0, 7⟩ 2 0 4 ⟨4, [[9], [9, 9, 9]]⟩, .logout, .login 8, .keepAlive ⟨2, 2, 2, 8⟩]

theorem wire_sessions_eq_direct_twoSessions :
    let link := Mealy.run (Link.call (coldBackend linkGeometry.member fun _ _ => .ok ()))
      (.new (List.replicate 16 3) linkGeometry) twoSessions
    link.1 = [.ok (.login 1 (-1) 64 2 1024 nilId [linkGeometry.member]), .ok (.lsns ⟨-1, 0⟩), .ok .done,
      .error .timedOut, .ok (.lsns ⟨-1, 2⟩), .ok (.lsns ⟨0, 2⟩), .error .invalidArgument, .ok (.resolution ⟨2, [1]⟩),
      .ok .done, .error (.craft .replicaDown),
      .ok (.read [⟨0, 2, false⟩, ⟨2, 2, true⟩] ⟨2, 2⟩ ⟨4, [[5], [6, 0, 0]]⟩), .ok .done,
      .ok (.login 2 2 64 2 1024 nilId [linkGeometry.member]), .ok (.lsns ⟨2, 2⟩)] := by
  intro link
  have h : link.1 = (Mealy.run (Direct.call linkGeometry) ⟨.new linkGeometry.lbaSize, 0, .down⟩ twoSessions).1 ∧ _ :=
    wire_sessions_eq_direct rfl ⟨rfl, by decide⟩ (by decide +kernel)
  rw [h.1]
  decide +kernel

end Runs

end Session

end CraftClient.Net
