import CraftClient.Net.Resolve
import CraftClient.Replica.Scatter
import CraftClient.Wire.Codec

/-! The handlers of `craft_tcp_server`, which fronts one replica, and of a connection of `craft_cluster_server`. -/

namespace CraftClient.Net

open Bytes Replica Wire

structure Reply where
  op : Op
  status : UInt8
  opHeader : List UInt8
  body : List UInt8
  deriving DecidableEq

def Reply.bytes (r : Reply) (requestId : UInt16) : List UInt8 :=
  frameMessage r.op r.status requestId r.opHeader r.body {}

def statusReply (op : Op) (status : UInt8) : Reply := ⟨op, status, [], []⟩

def lsnReply (op : Op) (status : UInt8) (l : LsnPair) : Reply := ⟨op, status, encodeLsns l, []⟩

def payload (body : List UInt8) : Option (List UInt8) := if body = [] then none else some body

section Read

def readBody (layout : List IoExtent) (destBuf : List UInt8) (addr : UInt64) : List UInt8 :=
  layout.flatMap encodeExtent ++
    layout.flatMap fun e => if e.hole then [] else slice destBuf (e.addr - addr).toNat e.len.toNat

def readReply (r : MemReplica) (hdr : ClientHdr) (req : ReadReq) : Reply × MemReplica :=
  let dest : SgList := ⟨req.len, [List.replicate req.len.toNat 0]⟩
  match r.doReadInto hdr req.readLsn req.addr req.len dest with
  | .error e => (⟨.readRsp, toWireStatus e, ReadRsp.encode ⟨r.peekLsns, 0⟩, []⟩, r)
  | .ok (res, dest', r') =>
    (⟨.readRsp, Wire.ok, ReadRsp.encode ⟨res.lsns, .ofNat res.extents.length⟩,
      readBody res.extents dest'.bytes req.addr⟩, r')

def readRefused (status : UInt8) : Reply := ⟨.readRsp, status, ReadRsp.encode ⟨⟨0, 0⟩, 0⟩, []⟩

end Read

def resolveReply (status : UInt8) (res : ResolutionResult) : Reply :=
  ⟨.resolveRsp, status, ResolveRsp.encode ⟨res.resolvedUpto, .ofNat res.emptySlots.length⟩,
    res.emptySlots.flatMap encodeI64⟩

section Tcp

structure ServerGeometry where
  capacity : UInt64
  lbaSize : UInt32
  maxTx : UInt32
  member : Member

structure LoginResult where
  members : List Member
  dLSN : ℤ
  leaderHint : Option (List UInt8)

/-- What stands behind the server: `raft_service`, and how `srv_establish` and `srv_create_volume` come out. -/
structure Backend where
  raftEnabled : Bool
  establish : LoginReq → UInt64 → MemReplica → Except ErrorCond LoginResult × MemReplica
  createVolume : List UInt8 → List Member → Except ErrorCond Unit

def coldEstablish (member : Member) (req : LoginReq) (term : UInt64) (r : MemReplica) :
    Except ErrorCond LoginResult × MemReplica :=
  (.ok ⟨[member], r.lastAppendLsn, none⟩, r.coldApplyLogin req.clientToken term)

def coldBackend (member : Member) (createVolume : List UInt8 → List Member → Except ErrorCond Unit) : Backend :=
  ⟨false, coldEstablish member, createVolume⟩

structure CraftTcpServer extends TcpServer where
  geo : ServerGeometry
  nextTerm : UInt64

namespace CraftTcpServer

variable (v : CraftTcpServer) (b : Backend)

def new (geo : ServerGeometry) : CraftTcpServer := ⟨⟨.new geo.lbaSize, 0, false⟩, geo, 0⟩

def loginReply : Except ErrorCond LoginResult → Reply
  | .error e => statusReply .loginRsp (toWireStatus e)
  | .ok res =>
    if res.leaderHint.isSome then statusReply .loginRsp Wire.notLeader
    else ⟨.loginRsp, Wire.ok, LoginRsp.encode ⟨v.sessionTerm, res.dLSN, v.geo.capacity, v.geo.lbaSize, v.geo.maxTx,
      .ofNat res.members.length, nilId⟩, res.members.flatMap putMember⟩

def onLogin (req : LoginReq) : Reply × CraftTcpServer :=
  let term := v.nextTerm + 1
  let (res, r) := b.establish req term v.replica
  let v' := { v with replica := r, nextTerm := term, sessionTerm := term }
  let rsp := v'.loginReply res
  (rsp, { v' with sessionActive := rsp.status = Wire.ok })

def heloStatus (req : HeloReq) : UInt8 × MemReplica :=
  if b.raftEnabled then
    (if req.term ≠ v.replica.term ∨ req.clientToken ≠ v.replica.clientToken then Wire.staleTerm else Wire.ok,
      v.replica)
  else match b.establish ⟨req.volumeId, req.clientToken⟩ v.sessionTerm v.replica with
    | (.error e, r) => (toWireStatus e, r)
    | (.ok _, r) => (Wire.ok, r)

def onHelo (req : HeloReq) : Reply × CraftTcpServer :=
  let (code, r) := v.heloStatus b req
  let v' := { v with replica := r }
  (statusReply .heloRsp code,
    if code = Wire.ok then { v' with sessionTerm := req.term, sessionActive := true } else v')

def onLogout : Reply × CraftTcpServer :=
  if v.sessionActive then
    (statusReply .logoutRsp Wire.ok, { v with sessionActive := false, replica := v.replica.coldApplyLogout })
  else (statusReply .logoutRsp Wire.staleTerm, v)

def onWrite (req : WriteReq) (body : List UInt8) : Reply × CraftTcpServer :=
  let ((code, l), s) :=
    v.toTcpServer.onWrite req.hdr.commitLsn req.hdr.allCommittedLsn req.dlsn req.addr req.len (payload body)
  (lsnReply .writeRsp code l, { v with toTcpServer := s })

def onRead (req : ReadReq) : Reply × CraftTcpServer :=
  if ¬ v.sessionActive then (readRefused Wire.staleTerm, v)
  else
    let (rsp, r) := readReply v.replica (v.hdr req.hdr.commitLsn req.hdr.allCommittedLsn) req
    (rsp, { v with replica := r })

def onKeepAlive (req : ReqHdr) : Reply × CraftTcpServer :=
  let ((code, l), s) := v.toTcpServer.onKeepAlive req.commitLsn req.allCommittedLsn
  (lsnReply .keepaliveRsp code l, { v with toTcpServer := s })

def onResolve (req : ResolveReq) : Reply × CraftTcpServer :=
  let ((code, res), s) := v.toTcpServer.onResolve req.hdr.commitLsn req.hdr.allCommittedLsn req.upto
  (resolveReply code res, { v with toTcpServer := s })

def onCreateVolume (req : VolumeCreateReq) (body : List UInt8) : Reply × CraftTcpServer :=
  let code := match decodeMembers body req.memberCount.toNat with
    | none => Wire.invalidArgument
    | some members => match b.createVolume req.volumeId members with
      | .error e => toWireStatus e
      | .ok () => Wire.ok
  (statusReply .createVolumeRsp code, v)

end CraftTcpServer

end Tcp

inductive ClientOp
  | login | helo | write | read | keepalive | resolve | logout | createVolume
  deriving DecidableEq

namespace ClientOp

def req : ClientOp → Op
  | .login => .login
  | .helo => .helo
  | .write => .write
  | .read => .read
  | .keepalive => .keepalive
  | .resolve => .resolve
  | .logout => .logout
  | .createVolume => .createVolume

def rsp : ClientOp → Op
  | .login => .loginRsp
  | .helo => .heloRsp
  | .write => .writeRsp
  | .read => .readRsp
  | .keepalive => .keepaliveRsp
  | .resolve => .resolveRsp
  | .logout => .logoutRsp
  | .createVolume => .createVolumeRsp

end ClientOp

inductive Request
  | login (req : LoginReq)
  | helo (req : HeloReq)
  | write (req : WriteReq) (body : List UInt8)
  | read (req : ReadReq)
  | keepalive (req : ReqHdr)
  | resolve (req : ResolveReq)
  | logout
  | createVolume (req : VolumeCreateReq) (body : List UInt8)

def ClientOp.decode (op : ClientOp) (opHeader body : List UInt8) : Request :=
  match op with
  | .login => .login (.decode opHeader)
  | .helo => .helo (.decode opHeader)
  | .write => .write (.decode opHeader) body
  | .read => .read (.decode opHeader)
  | .keepalive => .keepalive (.decode opHeader)
  | .resolve => .resolve (.decode opHeader)
  | .logout => .logout
  | .createVolume => .createVolume (.decode opHeader) body

namespace CraftTcpServer

def handle (v : CraftTcpServer) (b : Backend) : Request → Reply × CraftTcpServer
  | .login req => v.onLogin b req
  | .helo req => v.onHelo b req
  | .write req body => v.onWrite req body
  | .read req => v.onRead req
  | .keepalive req => v.onKeepAlive req
  | .resolve req => v.onResolve req
  | .logout => v.onLogout
  | .createVolume req body => v.onCreateVolume b req body

def serve (v : CraftTcpServer) (b : Backend) (op : ClientOp) (opHeader body : List UInt8) : Reply × CraftTcpServer :=
  v.handle b (op.decode opHeader body)

end CraftTcpServer

section Cluster

/-- `craft_cluster_server` as a handler sees it: its constants, and how the calls on the transport come out for the
replica of the connection. -/
structure ClusterBackend where
  pageSize : UInt32
  capacity : UInt64
  maxTx : UInt32
  volId : List UInt8
  members : List Member
  isUp : Bool
  writeAllowed : Bool
  runLogin : UInt64 → Except ErrorCond (UInt64 × ℤ × List UInt8)
  runResolution : UInt64 → ℤ → Except ErrorCond ResolutionResult
  runLogout : UInt64 → Except ErrorCond Unit
  sessActive : Bool
  sessTerm : UInt64

structure ClusterConn where
  connTerm : UInt64
  bound : Bool
  deriving DecidableEq

namespace ClusterConn

variable (c : ClusterConn) (b : ClusterBackend) (r : MemReplica)

def onLogin (req : LoginReq) : Reply × ClusterConn :=
  if req.volumeId ≠ b.volId then (⟨.loginRsp, Wire.invalidArgument, LoginRsp.zero.encode, []⟩, c)
  else match b.runLogin req.clientToken with
    | .error e => (⟨.loginRsp, toWireStatus e, LoginRsp.zero.encode, []⟩, c)
    | .ok (term, dlsn, hint) =>
      if term = 0 then
        (⟨.loginRsp, Wire.ok, LoginRsp.encode ⟨0, dlsn, b.capacity, b.pageSize, b.maxTx, 0, hint⟩, []⟩, c)
      else
        (⟨.loginRsp, Wire.ok, LoginRsp.encode ⟨term, dlsn, b.capacity, b.pageSize, b.maxTx,
          .ofNat b.members.length, nilId⟩, b.members.flatMap putMember⟩, ⟨term, true⟩)

def onHelo (req : HeloReq) : Reply × ClusterConn :=
  if b.sessActive ∧ req.term = b.sessTerm then (statusReply .heloRsp Wire.ok, ⟨b.sessTerm, true⟩)
  else (statusReply .heloRsp Wire.staleTerm, c)

def hdr (req : ReqHdr) : ClientHdr := ⟨c.connTerm, req.commitLsn, req.allCommittedLsn, 0⟩

def onWrite (req : WriteReq) (body : List UInt8) : Reply × MemReplica :=
  if ¬ c.bound then (lsnReply .writeRsp Wire.staleTerm r.peekLsns, r)
  else if ¬ b.isUp ∨ ¬ b.writeAllowed then (lsnReply .writeRsp Wire.replicaDown r.peekLsns, r)
  else match r.doWrite (c.hdr req.hdr) req.dlsn req.addr req.len (payload body) with
    | .error e => (lsnReply .writeRsp (toWireStatus e) r.peekLsns, r)
    | .ok (l, r') => (lsnReply .writeRsp Wire.ok l, r')

def onRead (req : ReadReq) : Reply × MemReplica :=
  if ¬ c.bound then (readRefused Wire.staleTerm, r)
  else if ¬ b.isUp then (readRefused Wire.replicaDown, r)
  else readReply r (c.hdr req.hdr) req

def onKeepAlive (req : ReqHdr) : Reply × MemReplica :=
  if ¬ c.bound then (lsnReply .keepaliveRsp Wire.staleTerm ⟨-1, -1⟩, r)
  else if ¬ b.isUp then (lsnReply .keepaliveRsp Wire.replicaDown ⟨-1, -1⟩, r)
  else match r.doKeepAlive (c.hdr req) with
    | .error e => (lsnReply .keepaliveRsp (toWireStatus e) ⟨-1, -1⟩, r)
    | .ok (l, r') => (lsnReply .keepaliveRsp Wire.ok l, r')

def onResolve (req : ResolveReq) : Reply :=
  if ¬ c.bound then resolveReply Wire.staleTerm ⟨0, []⟩
  else if ¬ b.isUp then resolveReply Wire.replicaDown ⟨0, []⟩
  else match b.runResolution c.connTerm req.upto with
    | .error e => resolveReply (toWireStatus e) ⟨0, []⟩
    | .ok res => resolveReply Wire.ok res

def onLogout : Reply × ClusterConn :=
  if ¬ c.bound then (statusReply .logoutRsp Wire.staleTerm, c)
  else match b.runLogout c.connTerm with
    | .error e => (statusReply .logoutRsp (toWireStatus e), c)
    | .ok () => (statusReply .logoutRsp Wire.ok, { c with bound := false })

def reply (op : ClientOp) (opHeader body : List UInt8) : Option Reply :=
  match op with
  | .login => some (c.onLogin b (.decode opHeader)).1
  | .helo => some (c.onHelo b (.decode opHeader)).1
  | .write => some (c.onWrite b r (.decode opHeader) body).1
  | .read => some (c.onRead b r (.decode opHeader)).1
  | .keepalive => some (c.onKeepAlive b r (.decode opHeader)).1
  | .resolve => some (c.onResolve b (.decode opHeader))
  | .logout => some (c.onLogout b).1
  | .createVolume => none

end ClusterConn

end Cluster

end CraftClient.Net
