import CraftClient.Net.ClusterSession

/-! A client over `CraftTcpReplica`s, and the walk of `craft_client::logout` over them. -/

namespace CraftClient.Net

open Cluster Replica Wire

variable {κ : Type} {n : ℕ}

structure Proxy (κ : Type) where
  conn : Option κ
  bound : Option UInt64

inductive LogoutPc (κ : Type)
  | idle
  | walk (hop : ℕ)
  | waiting (hop : ℕ) (k : κ)

structure EndedSession (n : ℕ) where
  term : UInt64
  stayed : Fin n → Bool

/-- `loginOn` is the LOGIN in progress; `grants` and `oks` are replies under way to the client. `stayed` are the
members that have been up since the last `logout` began. -/
structure TcpClient (κ : Type) (n : ℕ) where
  srv : ClusterServer κ n
  proxies : Fin n → Proxy κ
  leader : Fin n
  term : UInt64
  loginOn : Option (Fin n × κ)
  pc : LogoutPc κ
  grants : κ → Option UInt64
  oks : κ → Bool
  stayed : Fin n → Bool
  ended : List (EndedSession n)

/-- `server` is a request on any connection, or a step of one; `drop` the fault of an operation of the proxy. -/
inductive TcpAct (κ : Type) (n : ℕ)
  | server (a : ClusterAct κ)
  | setUp (m : Fin n) (up : Bool)
  | setLeader (m : Fin n)
  | connect (m : Fin n) (k : κ)
  | drop (m : Fin n)
  | login (m : Fin n) (clientToken : UInt64)
  | loginReply
  | loginFault
  | helo (m : Fin n) (clientToken : UInt64)
  | logout
  | ask
  | receive
  | fault

def target (leader : Fin n) (hop : ℕ) : Fin n := ⟨(leader + hop) % n, Nat.mod_lt _ leader.pos⟩

def nextTarget (κ : Type) (n hop : ℕ) : LogoutPc κ := if hop + 1 < n then .walk (hop + 1) else .idle

namespace TcpClient

def start (srv : ClusterServer κ n) (leader : Fin n) : TcpClient κ n :=
  ⟨srv, fun _ => ⟨none, none⟩, leader, 0, none, .idle, fun _ => none, fun _ => false, fun _ => false, []⟩

variable (s : TcpClient κ n)

def setProxy (m : Fin n) (p : Proxy κ) : TcpClient κ n := { s with proxies := Function.update s.proxies m p }

def finish : TcpClient κ n :=
  { s with term := 0, pc := .idle, ended := ⟨s.term, s.stayed⟩ :: s.ended }

def setUp (m : Fin n) (up : Bool) : TcpClient κ n :=
  { s with
    srv := { s.srv with net := { s.srv.net with up := Function.update s.srv.net.up m up } }
    stayed := Function.update s.stayed m (s.stayed m && up)
    ended := s.ended.map fun e => { e with stayed := Function.update e.stayed m (e.stayed m && up) } }

variable [DecidableEq κ]

def served (a : ClusterAct κ) (srv : ClusterServer κ n) : TcpClient κ n :=
  match a, s.srv.sessMu, srv.sessMu with
  | .goLogin, some (k, _), none =>
    { s with srv := srv, grants := Function.update s.grants k (some (srv.conns k).connTerm) }
  | .goLogout, some (k, _), none => { s with srv := srv, oks := Function.update s.oks k true }
  | _, _, _ => { s with srv := srv }

def ask (b : ClusterBackend) (hop : ℕ) : Option (TcpClient κ n) :=
  match (s.proxies (target s.leader hop)).conn with
  | none => some { s with pc := nextTarget κ n hop }
  | some k => (clusterStep b s.srv (.logout k)).map fun srv =>
      if ¬ (s.srv.conns k).bound then { s with srv := srv }.finish
      else if srv.sessMu.isSome then
        { s with srv := srv, pc := .waiting hop k, oks := Function.update s.oks k false }
      else { s with srv := srv, pc := nextTarget κ n hop }

end TcpClient

variable [DecidableEq κ]

def tcpStep (b : ClusterBackend) (s : TcpClient κ n) : TcpAct κ n → Option (TcpClient κ n)
  | .server a => (clusterStep b s.srv a).map (s.served a)
  | .setUp m up => some (s.setUp m up)
  | .setLeader m => some { s with srv := { s.srv with net := { s.srv.net with leader := m } } }
  | .connect m k =>
    if (s.proxies m).conn = none ∧ s.srv.port k = m ∧ s.srv.conns k = ⟨0, false⟩ then
      some (s.setProxy m ⟨some k, none⟩)
    else none
  | .drop m => some (s.setProxy m ⟨none, none⟩)
  | .login m clientToken =>
    match s.pc, s.loginOn, (s.proxies m).conn with
    | .idle, none, some k => (clusterStep b s.srv (.login k clientToken)).map fun srv =>
        -- a redirect or an error leaves the client where it is
        if srv.sessMu.isSome then
          { s with srv := srv, loginOn := some (m, k), grants := Function.update s.grants k none }
        else { s with srv := srv }
    | _, _, _ => none
  | .loginReply => do
    let (m, k) ← s.loginOn
    let t ← s.grants k
    some { s.setProxy m ⟨some k, some t⟩ with leader := m, term := t, loginOn := none }
  | .loginFault => do
    let (m, _) ← s.loginOn
    some { s.setProxy m ⟨none, none⟩ with loginOn := none }
  | .helo m clientToken =>
    match s.proxies m with
    | ⟨some k, bound⟩ =>
      if bound = some s.term then none
      else
        let req : HeloReq := ⟨b.volId, clientToken, s.term⟩
        (clusterStep b s.srv (.helo k req)).map fun srv =>
          if ((s.srv.conns k).onHelo (s.srv.backend b k) req).1.status = Wire.ok then
            { s with srv := srv }.setProxy m ⟨some k, some s.term⟩
          else { s with srv := srv }
    | _ => none
  | .logout =>
    match s.pc, s.loginOn with
    | .idle, none => if s.term = 0 then none else some { s with pc := .walk 0, stayed := s.srv.net.up }
    | _, _ => none
  | .ask =>
    match s.pc with
    | .walk hop => s.ask b hop
    | _ => none
  | .receive =>
    match s.pc with
    | .waiting hop k => if s.oks k then some { s with leader := target s.leader hop }.finish else none
    | _ => none
  | .fault =>
    match s.pc with
    | .walk hop | .waiting hop _ =>
      some { s.setProxy (target s.leader hop) ⟨none, none⟩ with pc := nextTarget κ n hop }
    | .idle => none

/-- A LOGOUT goes on a connection that the server has bound at the term of the client, and the terms do not run out. -/
def LogoutBound (s : TcpClient κ n) : TcpAct κ n → Prop
  | .server (.login _ _) | .login _ _ => s.srv.net.term < s.srv.net.term + 1
  | .ask =>
    match s.pc with
    | .walk hop => (s.proxies (target s.leader hop)).conn.all fun k => s.srv.conns k = ⟨s.term, true⟩
    | _ => True
  | _ => True

instance (s : TcpClient κ n) (a : TcpAct κ n) : Decidable (LogoutBound s a) := by
  unfold LogoutBound
  split
  · infer_instance
  · infer_instance
  · split <;> infer_instance
  · infer_instance

end CraftClient.Net
