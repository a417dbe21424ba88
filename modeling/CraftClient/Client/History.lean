import CraftClient.Client.Broadcast
import CraftClient.Cluster.Login

/-! Any number of sessions over one `MemTransport` cluster: logins and logouts phase by phase, writes, keep-alives. -/

namespace CraftClient.Client

open Replica Router Cluster Tracker

variable {σ κ ρ : Type} {n : ℕ}

structure HistWrite (n : ℕ) where
  req : WriteReq
  legs : Fin n → Leg
  outcome : Option SlotOutcome

def HistWrite.setLeg (w : HistWrite n) (m : Fin n) (leg : Leg) : HistWrite n :=
  { w with legs := Function.update w.legs m leg }

/-- What a client keeps of its session; `frontier` is the end of the resolved run above `loginDlsn`. -/
structure HistSession (n : ℕ) where
  term : UInt64
  clientToken : UInt64
  lbaSize : UInt32
  loginDlsn : ℤ
  nextDlsn : ℤ
  frontier : ℤ
  writes : ℤ → Option (HistWrite n)

namespace HistSession

variable (S : HistSession n)

def setWrite (d : ℤ) (w : HistWrite n) : HistSession n :=
  { S with writes := Function.update S.writes d (some w) }

def hdr (commitLsn : ℤ) : ClientHdr := ⟨S.term, commitLsn, S.loginDlsn, S.clientToken⟩

def precheck (addr len : UInt64) : Bool :=
  let lba := S.lbaSize.toUInt64
  lba ≠ 0 && len ≠ 0 && addr % lba = 0 && len % lba = 0

def write (addr len : UInt64) (bytes : Option (List UInt8)) : HistSession n :=
  let d := S.nextDlsn
  { S.setWrite d ⟨⟨S.hdr S.frontier, d, addr, len, bytes⟩, fun _ => ⟨.unsent, none⟩, none⟩ with
    nextDlsn := d + 1 }

def resolvedAt (d : ℤ) : Bool := (S.writes d).any fun w => w.outcome.any isResolved

end HistSession

/-- `logouts` holds the members that a running `run_logout` has still to visit. -/
structure History (σ κ ρ : Type) (n : ℕ) where
  net : MemTransport ρ n
  logins : κ → Login n
  logouts : κ → List (Fin n)
  sessions : σ → Option (HistSession n)

inductive HistAct (σ κ : Type) (n : ℕ)
  | login (k : κ) (caller : Fin n) (clientToken : UInt64)
  | goLogin (k : κ)
  | opens (i : σ) (k : κ) (clientToken : UInt64)
  | keepAlive (i : σ) (m : Fin n) (commitLsn : ℤ)
  | write (i : σ) (addr len : UInt64) (bytes : Option (List UInt8))
  | leg (i : σ) (d : ℤ) (m : Fin n) (a : LegAct)
  | deliver (i : σ) (d : ℤ) (m : Fin n)
  | resolve (i : σ) (d : ℤ)
  | advance (i : σ)
  | logout (k : κ) (i : σ) (m : Fin n)
  | goLogout (k : κ)
  | setUp (m : Fin n) (up : Bool)
  | setLeader (m : Fin n)

namespace History

def new [NeZero n] (pageSize : UInt32) : History σ κ ρ n :=
  ⟨⟨fun _ => .new pageSize, fun _ => true, 0, 0, fun _ => .idle⟩, fun _ => .idle, fun _ => [], fun _ => none⟩

variable (s : History σ κ ρ n)

def setMember (m : Fin n) (r : MemReplica) : History σ κ ρ n := { s with net := s.net.setMember m r }

def openSession (res : LoginResult n) (clientToken : UInt64) : HistSession n :=
  ⟨res.term, clientToken, (s.net.members s.net.leader).pageSize, res.dlsn, res.dlsn + 1, res.dlsn,
    fun _ => none⟩

def mayLogout (S : HistSession n) (m : Fin n) : Bool :=
  s.net.up m && (s.net.members m).term = S.term && m = s.net.leader

variable [DecidableEq σ] [DecidableEq κ]

def setSession (i : σ) (S : HistSession n) : History σ κ ρ n :=
  { s with sessions := Function.update s.sessions i (some S) }

def setLogin (k : κ) (l : Login n) (net : MemTransport ρ n) : History σ κ ρ n :=
  { s with net := net, logins := Function.update s.logins k l }

def deliver (i : σ) (S : HistSession n) (d : ℤ) (w : HistWrite n) (m : Fin n) : History σ κ ρ n :=
  let q := w.req
  let ans := (s.net.members m).doWrite q.hdr q.dlsn q.addr q.len q.bytes
  let leg : Leg := { w.legs m with request := .served (ans.map Prod.fst) }
  let s' := s.setSession i (S.setWrite d (w.setLeg m leg))
  match ans with
  | .ok (_, r) => s'.setMember m r
  | .error _ => s'

end History

variable [DecidableEq σ] [DecidableEq κ]

def histStep (s : History σ κ ρ n) : HistAct σ κ n → Option (History σ κ ρ n)
  | .login k caller clientToken =>
    match s.logins k with
    | .idle =>
      let (l, net) := s.net.startLogin caller clientToken
      some (s.setLogin k l net)
    | _ => none
  | .goLogin k => (s.net.goLogin (s.logins k)).map fun (l, net) => s.setLogin k l net
  | .opens i k clientToken =>
    match s.logins k, s.sessions i with
    | .done res, none =>
      let s' := s.setLogin k .idle s.net
      match res with
      | .ok r => some (if r.term = 0 then s' else s'.setSession i (s.openSession r clientToken))
      | .error _ => some s'
    | _, _ => none
  | .keepAlive i m commitLsn => do
    let S ← s.sessions i
    if commitLsn ≤ S.frontier ∧ s.net.up m then
      match (s.net.members m).doKeepAlive (S.hdr commitLsn) with
      | .ok (_, r) => some (s.setMember m r)
      | .error _ => some s
    else none
  | .write i addr len bytes => do
    let S ← s.sessions i
    if S.precheck addr len then some (s.setSession i (S.write addr len bytes)) else none
  | .leg i d m a => do
    let S ← s.sessions i
    let w ← S.writes d
    let leg ← legStep .mem (w.legs m) a
    some (s.setSession i (S.setWrite d (w.setLeg m leg)))
  | .deliver i d m => do
    let S ← s.sessions i
    let w ← S.writes d
    match (w.legs m).request with
    | .inFlight => if s.net.up m then some (s.deliver i S d w m) else none
    | _ => none
  | .resolve i d => do
    let S ← s.sessions i
    let w ← S.writes d
    match w.outcome, writeOutcome fun m => (w.legs m).seen with
    | none, some oc => some (s.setSession i (S.setWrite d { w with outcome := some oc }))
    | _, _ => none
  | .advance i => do
    let S ← s.sessions i
    if S.resolvedAt (S.frontier + 1) then some (s.setSession i { S with frontier := S.frontier + 1 })
    else none
  | .logout k i m => do
    let S ← s.sessions i
    match s.logouts k with
    | [] => some (if s.mayLogout S m then { s with logouts := Function.update s.logouts k s.net.live } else s)
    | _ => none
  | .goLogout k =>
    match s.logouts k with
    | m :: rest => some { s.setMember m (s.net.members m).coldApplyLogout with
        logouts := Function.update s.logouts k rest }
    | [] => none
  | .setUp m up => some { s with net := { s.net with up := Function.update s.net.up m up } }
  | .setLeader m => some { s with net := { s.net with leader := m } }

section Steps

variable {s s' : History σ κ ρ n} {i : σ} {k : κ} {d : ℤ} {m : Fin n}

lemma histStep_login {clientToken : UInt64} (h : histStep s (.login k m clientToken) = some s') :
    s.logins k = .idle ∧
      s' = s.setLogin k (s.net.startLogin m clientToken).1 (s.net.startLogin m clientToken).2 := by
  simp only [histStep] at h
  split at h
  · cases h
    exact ⟨by assumption, rfl⟩
  · cases h

lemma histStep_opens {clientToken : UInt64} (h : histStep s (.opens i k clientToken) = some s') :
    s.sessions i = none ∧ (s' = s.setLogin k .idle s.net ∨
      ∃ r, s.logins k = .done (.ok r) ∧ r.term ≠ 0 ∧
        s' = (s.setLogin k .idle s.net).setSession i (s.openSession r clientToken)) := by
  simp only [histStep] at h
  split at h
  · rename_i res hl hi
    refine ⟨hi, ?_⟩
    cases res with
    | ok r =>
      simp only [Option.some.injEq] at h
      split_ifs at h with hr
      · exact Or.inl h.symm
      · exact Or.inr ⟨r, hl, hr, h.symm⟩
    | error e => exact Or.inl (Option.some.inj h).symm
  · cases h

lemma histStep_keepAlive {commitLsn : ℤ} (h : histStep s (.keepAlive i m commitLsn) = some s') :
    s' = s ∨ ∃ l r hdr, (s.net.members m).doKeepAlive hdr = .ok (l, r) ∧ s' = s.setMember m r := by
  simp only [histStep, Option.bind_eq_bind, Option.bind_eq_some_iff] at h
  obtain ⟨S, -, h⟩ := h
  split_ifs at h
  split at h
  · cases h
    exact Or.inr ⟨_, _, _, by assumption, rfl⟩
  · cases h
    exact Or.inl rfl

lemma histStep_write {addr len : UInt64} {bytes : Option (List UInt8)}
    (h : histStep s (.write i addr len bytes) = some s') :
    ∃ S, s.sessions i = some S ∧ s' = s.setSession i (S.write addr len bytes) := by
  simp only [histStep, Option.bind_eq_bind, Option.bind_eq_some_iff] at h
  obtain ⟨S, hS, h⟩ := h
  split_ifs at h
  cases h
  exact ⟨S, hS, rfl⟩

lemma histStep_leg {a : LegAct} (h : histStep s (.leg i d m a) = some s') :
    ∃ S w leg, s.sessions i = some S ∧ S.writes d = some w ∧ legStep .mem (w.legs m) a = some leg ∧
      s' = s.setSession i (S.setWrite d (w.setLeg m leg)) := by
  simp only [histStep, Option.bind_eq_bind, Option.bind_eq_some_iff] at h
  obtain ⟨S, hS, w, hw, leg, hl, h⟩ := h
  cases h
  exact ⟨S, w, leg, hS, hw, hl, rfl⟩

lemma histStep_deliver (h : histStep s (.deliver i d m) = some s') :
    ∃ S w, s.sessions i = some S ∧ S.writes d = some w ∧ (w.legs m).request = .inFlight ∧
      s' = s.deliver i S d w m := by
  simp only [histStep, Option.bind_eq_bind, Option.bind_eq_some_iff] at h
  obtain ⟨S, hS, w, hw, h⟩ := h
  split at h
  · split_ifs at h
    cases h
    exact ⟨S, w, hS, hw, by assumption, rfl⟩
  · cases h

lemma histStep_resolve (h : histStep s (.resolve i d) = some s') :
    ∃ S w oc, s.sessions i = some S ∧ S.writes d = some w ∧
      s' = s.setSession i (S.setWrite d { w with outcome := some oc }) := by
  simp only [histStep, Option.bind_eq_bind, Option.bind_eq_some_iff] at h
  obtain ⟨S, hS, w, hw, h⟩ := h
  split at h
  · cases h
    exact ⟨S, w, _, hS, hw, rfl⟩
  · cases h

lemma histStep_advance (h : histStep s (.advance i) = some s') :
    ∃ S, s.sessions i = some S ∧ s' = s.setSession i { S with frontier := S.frontier + 1 } := by
  simp only [histStep, Option.bind_eq_bind, Option.bind_eq_some_iff] at h
  obtain ⟨S, hS, h⟩ := h
  split_ifs at h
  cases h
  exact ⟨S, hS, rfl⟩

lemma histStep_logout (h : histStep s (.logout k i m) = some s') :
    ∃ logouts, s' = { s with logouts := logouts } := by
  simp only [histStep, Option.bind_eq_bind, Option.bind_eq_some_iff] at h
  obtain ⟨S, -, h⟩ := h
  split at h
  · cases h
    split_ifs
    · exact ⟨_, rfl⟩
    · exact ⟨s.logouts, rfl⟩
  · cases h

lemma histStep_goLogout (h : histStep s (.goLogout k) = some s') :
    ∃ m logouts, s' = { s.setMember m (s.net.members m).coldApplyLogout with logouts := logouts } := by
  simp only [histStep] at h
  split at h
  · cases h
    exact ⟨_, _, rfl⟩
  · cases h

end Steps

end CraftClient.Client
