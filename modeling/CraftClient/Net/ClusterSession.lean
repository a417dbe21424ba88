import CraftClient.Cluster.SingleWriter
import CraftClient.Net.Server
import CraftClient.Replica.Fencing

/-! The session of a `craft_cluster_server`, whose LOGIN and LOGOUT visit the replicas one by one. -/

namespace CraftClient.Net

open Cluster Replica Router Runs Wire

variable {κ : Type} {n : ℕ}

def startResolution (net : MemTransport κ n) (caller : Fin n) (term : UInt64) (upto : ℤ) : Round n :=
  if ¬ net.up caller then .done caller (.error (.craft .replicaDown))
  else if caller ≠ net.leader then .done caller (.error (.craft .notLeader))
  else if term ≠ net.term then .done caller (.error (.craft .staleTerm))
  else if net.live.length < quorum n then .done caller (.error (.craft .noQuorum))
  else .running ⟨caller, upto, net.live⟩ (.floor net.live int64Max)

def isRunning : Round n → Bool
  | .running _ _ => true
  | _ => false

inductive SessionOp (n : ℕ)
  | login (c : Cluster.LoginCall n) (pc : LoginPc n)
  | logout (rest : List (Fin n))

structure ClusterExecuted (κ : Type) where
  conn : κ
  connTerm : UInt64
  live : Option UInt64
  deriving DecidableEq

/-- `port` is the replica that a connection has come to. The rounds are those of the connections. `deposed` and
`loggedOut` are whether a LOGIN, or a LOGOUT, has gone to the replicas since the connection was bound. -/
structure ClusterServer (κ : Type) (n : ℕ) where
  net : MemTransport κ n
  port : κ → Fin n
  writeAllowed : Fin n → Bool
  conns : κ → ClusterConn
  sessActive : Bool
  sessTerm : UInt64
  sessMu : Option (κ × SessionOp n)
  deposed : κ → Bool
  loggedOut : κ → Bool
  executed : List (ClusterExecuted κ)

inductive ClusterAct (κ : Type)
  | login (k : κ) (clientToken : UInt64)
  | goLogin
  | helo (k : κ) (req : HeloReq)
  | io (k : κ) (req : Request)
  | resolve (k : κ) (upto : ℤ)
  | goRound (k : κ)
  | logout (k : κ)
  | goLogout

def ClusterConn.onIo (c : ClusterConn) (b : ClusterBackend) (r : MemReplica) : Request → Option (Reply × MemReplica)
  | .write req body => some (c.onWrite b r req body)
  | .read req => some (c.onRead b r req)
  | .keepalive req => some (c.onKeepAlive b r req)
  | _ => none

namespace ClusterServer

def start (pageSize : UInt32) (up writeAllowed : Fin n → Bool) (leader : Fin n) (port : κ → Fin n) :
    ClusterServer κ n :=
  ⟨⟨fun _ => .new pageSize, up, leader, 0, fun _ => .idle⟩, port, writeAllowed, fun _ => ⟨0, false⟩, false, 0, none,
    fun _ => false, fun _ => false, []⟩

variable (s : ClusterServer κ n)

def liveTerm : Option UInt64 := if s.sessActive then some s.sessTerm else none

def backend (b : ClusterBackend) (k : κ) : ClusterBackend :=
  { b with
    isUp := s.net.up (s.port k)
    writeAllowed := s.writeAllowed (s.port k)
    sessActive := s.sessActive
    sessTerm := s.sessTerm }

def onIo (b : ClusterBackend) (k : κ) (req : Request) : Option (Reply × MemReplica) :=
  (s.conns k).onIo (s.backend b k) (s.net.members (s.port k)) req

def setMember (m : Fin n) (r : MemReplica) : ClusterServer κ n :=
  { s with net := { s.net with members := Function.update s.net.members m r } }

def log (k : κ) : ClusterServer κ n :=
  { s with executed := ⟨k, (s.conns k).connTerm, s.liveTerm⟩ :: s.executed }

variable [DecidableEq κ]

def Idle (k : κ) : Prop := s.sessMu.all (fun h => h.1 ≠ k) = true ∧ isRunning (s.net.rounds k) = false

instance (k : κ) : Decidable (s.Idle k) := inferInstanceAs (Decidable (_ ∧ _))

def bind (k : κ) (term : UInt64) : ClusterServer κ n :=
  { s with
    conns := Function.update s.conns k ⟨term, true⟩
    deposed := Function.update s.deposed k false
    loggedOut := Function.update s.loggedOut k false }

def endLogin (k : κ) (term : UInt64) : ClusterServer κ n :=
  let s' := { s with sessMu := none }
  if term = 0 then s' else { s'.bind k term with sessActive := true, sessTerm := term }

def endLogout (k : κ) : ClusterServer κ n :=
  { s with
    sessMu := none
    sessActive := false
    sessTerm := 0
    conns := Function.update s.conns k { s.conns k with bound := false } }

end ClusterServer

def clusterStep [DecidableEq κ] (b : ClusterBackend) (s : ClusterServer κ n) : ClusterAct κ → Option (ClusterServer κ n)
  | .login k clientToken =>
    if s.Idle k ∧ s.sessMu.isNone then
      match s.net.startLogin (s.port k) clientToken with
      | (.running c pc, net) => some { s with net := net, sessMu := some (k, .login c pc), deposed := fun _ => true }
      | _ => some s
    else none
  | .goLogin =>
    match s.sessMu with
    | some (k, .login c pc) =>
      let (members, next) := loginStep s.net.members c pc
      let s' := { s with net := { s.net with members := members } }
      some (match next with
        | .inl pc' => { s' with sessMu := some (k, .login c pc') }
        | .inr res => s'.endLogin k res.term)
    | _ => none
  | .helo k req =>
    if s.Idle k ∧ s.sessMu.isNone then
      let (rsp, c) := (s.conns k).onHelo (s.backend b k) req
      some (if rsp.status = Wire.ok then s.bind k c.connTerm else s)
    else none
  | .io k req =>
    if s.Idle k then
      (s.onIo b k req).map fun (rsp, r) =>
        let s' := s.setMember (s.port k) r
        if rsp.status = Wire.ok then s'.log k else s'
    else none
  | .resolve k upto =>
    if s.Idle k then
      let c := s.conns k
      if ¬ c.bound ∨ ¬ s.net.up (s.port k) then some s
      else match startResolution s.net (s.port k) c.connTerm upto with
        | .running call pc =>
          some ({ s with net := { s.net with rounds := Function.update s.net.rounds k (.running call pc) } }.log k)
        | _ => some s
    else none
  | .goRound k => (s.net.goRound k).map fun net => { s with net := net }.log k
  | .logout k =>
    if s.Idle k then
      if ¬ (s.conns k).bound then some s
      else if s.sessMu.isSome then none
      else if ¬ s.net.up (s.port k) ∨ s.port k ≠ s.net.leader then some s
      else some ({ s with sessMu := some (k, .logout s.net.live), loggedOut := fun _ => true }.log k)
    else none
  | .goLogout =>
    match s.sessMu with
    | some (k, .logout (m :: rest)) =>
      some ({ s.setMember m (s.net.members m).coldApplyLogout with sessMu := some (k, .logout rest) }.log k)
    | some (k, .logout []) => some ((s.log k).endLogout k)
    | _ => none

/-- No LOGOUT comes on a connection whose session another LOGIN or LOGOUT has ended, and no RESOLVE on one that is
logged out; LOGIN and LOGOUT wait until no round is under way, and the terms do not run out. -/
def InSession (s : ClusterServer κ n) : ClusterAct κ → Prop
  | .login _ _ => (∀ j, isRunning (s.net.rounds j) = false) ∧ s.net.term < s.net.term + 1
  | .resolve k _ => (s.conns k).bound = true → s.loggedOut k = false
  | .logout k =>
    ((s.conns k).bound = true → s.deposed k = false ∧ s.loggedOut k = false) ∧
      ∀ j, isRunning (s.net.rounds j) = false
  | _ => True

instance [Fintype κ] : ∀ (s : ClusterServer κ n) (a : ClusterAct κ), Decidable (InSession s a)
  | _, .login .. => inferInstanceAs (Decidable ((∀ _, _ = _) ∧ _))
  | _, .resolve .. => inferInstanceAs (Decidable (_ = _ → _ = _))
  | _, .logout .. => inferInstanceAs (Decidable ((_ = _ → _ ∧ _) ∧ ∀ _, _ = _))
  | _, .goLogin | _, .helo .. | _, .io .. | _, .goRound _ | _, .goLogout => .isTrue trivial

section Io

variable {c : ClusterConn} {b : ClusterBackend} {r : MemReplica}

structure ClusterConn.FencesIo (c : ClusterConn) (b : ClusterBackend) (r : MemReplica) (out : Reply × MemReplica) :
    Prop where
  ok : out.1.status = Wire.ok → c.bound = true ∧ b.isUp = true ∧ c.connTerm = r.term
  term : out.2.term = r.term
  refused : out.1.status ≠ Wire.ok → out.2 = r

namespace ClusterConn

lemma fencesIo_refused {rsp : Reply} (h : rsp.status ≠ Wire.ok) : c.FencesIo b r (rsp, r) :=
  ⟨fun ho => absurd ho h, rfl, fun _ => rfl⟩

lemma fencesIo_ok {rsp : Reply} {r' : MemReplica} {hdr : ReqHdr} (hb : c.bound = true) (hu : b.isUp = true)
    (hf : (c.hdr hdr).term = r.term ∧ r'.term = r.term) (ho : rsp.status = Wire.ok) : c.FencesIo b r (rsp, r') :=
  ⟨fun _ => ⟨hb, hu, hf.1⟩, hf.2, fun hn => absurd ho hn⟩

lemma staleTerm_ne_ok : Wire.staleTerm ≠ Wire.ok := by decide

lemma replicaDown_ne_ok : Wire.replicaDown ≠ Wire.ok := by decide

lemma fencesIo_onWrite (req : WriteReq) (body : List UInt8) : c.FencesIo b r (c.onWrite b r req body) := by
  have hf := MemReplica.fenced_doWrite r (c.hdr req.hdr) req.dlsn req.addr req.len (payload body)
  rw [onWrite]
  split
  case isTrue => exact fencesIo_refused staleTerm_ne_ok
  case isFalse hb =>
    split
    case isTrue => exact fencesIo_refused replicaDown_ne_ok
    case isFalse hu =>
      rw [not_or, not_not, not_not] at hu
      cases hw : r.doWrite (c.hdr req.hdr) req.dlsn req.addr req.len (payload body) with
      | error e => exact fencesIo_refused (toWireStatus_ne_ok e)
      | ok out => exact fencesIo_ok (not_not.mp hb) hu.1 (hf.ok hw) rfl

lemma fencesIo_onRead (req : ReadReq) : c.FencesIo b r (c.onRead b r req) := by
  have hf := MemReplica.fenced_doReadInto r (c.hdr req.hdr) req.readLsn req.addr req.len
    ⟨req.len, [List.replicate req.len.toNat 0]⟩
  rw [onRead]
  split
  case isTrue => exact fencesIo_refused staleTerm_ne_ok
  case isFalse hb =>
    split
    case isTrue => exact fencesIo_refused replicaDown_ne_ok
    case isFalse hu =>
      simp only [readReply]
      split
      case h_1 e hr => exact fencesIo_refused (toWireStatus_ne_ok e)
      case h_2 res dest' r' hr => exact fencesIo_ok (not_not.mp hb) (not_not.mp hu) (hf.ok hr) rfl

lemma fencesIo_onKeepAlive (req : ReqHdr) : c.FencesIo b r (c.onKeepAlive b r req) := by
  have hf := MemReplica.fenced_doKeepAlive r (c.hdr req)
  rw [onKeepAlive]
  split
  case isTrue => exact fencesIo_refused staleTerm_ne_ok
  case isFalse hb =>
    split
    case isTrue => exact fencesIo_refused replicaDown_ne_ok
    case isFalse hu =>
      cases hk : r.doKeepAlive (c.hdr req) with
      | error e => exact fencesIo_refused (toWireStatus_ne_ok e)
      | ok out => exact fencesIo_ok (not_not.mp hb) (not_not.mp hu) (hf.ok hk) rfl

lemma fencesIo_onIo {req : Request} {out : Reply × MemReplica} (h : c.onIo b r req = some out) :
    c.FencesIo b r out := by
  cases req with
  | write req body =>
    cases h
    exact fencesIo_onWrite req body
  | read req =>
    cases h
    exact fencesIo_onRead req
  | keepalive req =>
    cases h
    exact fencesIo_onKeepAlive req
  | _ => cases h

end ClusterConn

end Io

section Rounds

lemma roundStep_term (members : Fin n → MemReplica) (c : RoundCall n) (pc : RoundPc n) (q : Fin n) :
    ((roundStep members c pc).1 q).term = (members q).term := by
  have hu : ∀ m r, r.term = (members m).term → (Function.update members m r q).term = (members q).term := by
    intro m r hr
    rw [Function.update_apply]
    split_ifs with hq
    · rw [hr, hq]
    · rfl
  cases pc with
  | floor rest floor => cases rest <;> rfl
  | scan d rest copy =>
    cases rest with
    | nil => cases copy <;> rfl
    | cons m rest => rfl
  | mark d rest verdicted =>
    cases rest with
    | nil => rfl
    | cons m rest => exact hu m _ rfl
  | fill d rest copy => cases rest <;> rfl
  | install d rest copy =>
    cases rest with
    | nil => rfl
    | cons m rest =>
      apply hu m
      rw [MemReplica.coldInstallSlot]
      split_ifs <;> rfl
  | sync rest =>
    cases rest with
    | nil => rfl
    | cons m rest => exact hu m _ (MemReplica.applyUpTo_term _ _)
  | reply => rfl

variable [DecidableEq κ] {net net' : MemTransport κ n} {k : κ}

structure RoundMoves (net net' : MemTransport κ n) (k : κ) : Prop where
  running : isRunning (net.rounds k) = true
  up : net'.up = net.up
  term : net'.term = net.term
  members : ∀ m, (net'.members m).term = (net.members m).term
  rounds : ∀ j, isRunning (net'.rounds j) = true → isRunning (net.rounds j) = true

lemma roundMoves_goRound (h : net.goRound k = some net') : RoundMoves net net' k := by
  rw [MemTransport.goRound] at h
  split at h
  case h_1 c pc hr =>
    have hk : isRunning (net.rounds k) = true := by
      rw [hr]
      rfl
    have ht := roundStep_term net.members c pc
    generalize roundStep net.members c pc = out at h ht
    cases h
    refine ⟨hk, rfl, rfl, ht, fun j hj => ?_⟩
    by_cases hjk : j = k
    · rw [hjk]
      exact hk
    · simp only [Function.update_of_ne hjk] at hj
      exact hj
  case h_2 => cases h

end Rounds

end CraftClient.Net
