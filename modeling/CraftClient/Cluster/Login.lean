import CraftClient.Cluster.Model

/-! `MemTransport::run_login`: the phases visit the live members one by one, with no lock across them. -/

namespace CraftClient.Cluster

open Replica Router

variable {κ ρ : Type} {n : ℕ}

/-- Where `run_login` stands. `rest` are the live members that the current phase has still to visit; in
`truncate` the first of them has just been seen with a tail above `rs`. -/
inductive LoginPc (n : ℕ)
  | peek (rest : List (Fin n)) (rs : ℤ)
  | sync (rest : List (Fin n)) (rs : ℤ)
  | install (rest : List (Fin n)) (rs : ℤ)
  | check (rest : List (Fin n)) (rs : ℤ)
  | truncate (rest : List (Fin n)) (rs : ℤ)
  deriving DecidableEq

structure LoginCall (n : ℕ) where
  clientToken : UInt64
  term : UInt64
  live : List (Fin n)

structure LoginResult (n : ℕ) where
  members : List (Fin n)
  dlsn : ℤ
  term : UInt64
  leaderHint : Option (Fin n)

inductive Login (n : ℕ)
  | idle
  | running (c : LoginCall n) (pc : LoginPc n)
  | done (res : Except ErrorCond (LoginResult n))

def Login.isRunning : Login n → Bool
  | .running _ _ => true
  | _ => false

def loginStep (members : Fin n → MemReplica) (c : LoginCall n) :
    LoginPc n → (Fin n → MemReplica) × (LoginPc n ⊕ LoginResult n)
  | .peek [] rs => (members, .inl (.sync c.live rs))
  | .peek (m :: rest) rs => (members, .inl (.peek rest (max rs (members m).peekLsns.lastAppendLsn)))
  | .sync [] rs => (members, .inl (.install c.live rs))
  | .sync (m :: rest) rs => (Function.update members m ((members m).coldApplySync rs), .inl (.sync rest rs))
  | .install [] rs => (members, .inl (.check c.live rs))
  | .install (m :: rest) rs =>
    (Function.update members m ((members m).coldApplyLogin c.clientToken c.term), .inl (.install rest rs))
  | .check [] rs => (members, .inr ⟨List.finRange n, rs, c.term, none⟩)
  | .check (m :: rest) rs =>
    (members, .inl (if rs < (members m).peekLsns.lastAppendLsn then .truncate (m :: rest) rs
      else .check rest rs))
  | .truncate [] rs => (members, .inl (.check [] rs))
  | .truncate (m :: rest) rs =>
    (Function.update members m ((members m).coldTruncateAbove rs), .inl (.check rest rs))

namespace MemTransport

def startLogin (s : MemTransport ρ n) (caller : Fin n) (clientToken : UInt64) :
    Login n × MemTransport ρ n :=
  if ¬ s.up caller then (.done (.error (.craft .replicaDown)), s)
  else if caller ≠ s.leader then (.done (.ok ⟨[], -1, 0, some s.leader⟩), s)
  else if s.live.length < quorum n then (.done (.error (.craft .noQuorum)), s)
  else (.running ⟨clientToken, s.term + 1, s.live⟩ (.peek s.live (-1)), { s with term := s.term + 1 })

lemma startLogin_cases (s : MemTransport ρ n) (caller : Fin n) (clientToken : UInt64) :
    (∃ res, s.startLogin caller clientToken = (.done res, s) ∧
      (∀ r, res = .ok r → r.term = 0) ∧ ∀ r, res = .ok r → r.dlsn = -1) ∨
    (s.up caller ∧ caller = s.leader ∧ quorum n ≤ s.live.length ∧
      s.startLogin caller clientToken =
        (.running ⟨clientToken, s.term + 1, s.live⟩ (.peek s.live (-1)), { s with term := s.term + 1 })) := by
  by_cases hup : s.up caller
  · rcases eq_or_ne caller s.leader with rfl | hl
    · by_cases hq : s.live.length < quorum n
      · refine Or.inl ⟨.error (.craft .noQuorum), by simp [startLogin, hup, hq], ?_, ?_⟩ <;> rintro r ⟨⟩
      · exact Or.inr ⟨hup, rfl, not_lt.mp hq, by simp [startLogin, hup, hq]⟩
    · refine Or.inl ⟨.ok ⟨[], -1, 0, some s.leader⟩, by simp [startLogin, hup, hl], ?_, ?_⟩ <;>
      · rintro r ⟨⟩
        rfl
  · refine Or.inl ⟨.error (.craft .replicaDown), by simp [startLogin, hup], ?_, ?_⟩ <;> rintro r ⟨⟩

lemma mem_live {s : MemTransport ρ n} {m : Fin n} : m ∈ s.live ↔ s.up m = true := by
  simp [live]

lemma nodup_live (s : MemTransport ρ n) : s.live.Nodup := (List.nodup_finRange n).filter _

def goLogin (s : MemTransport ρ n) : Login n → Option (Login n × MemTransport ρ n)
  | .running c pc =>
    let (members, next) := loginStep s.members c pc
    some (match next with
      | .inl pc' => .running c pc'
      | .inr res => .done (.ok res), { s with members := members })
  | _ => none

end MemTransport

lemma goLogin_eq_some {net net' : MemTransport ρ n} {l l' : Login n} (h : net.goLogin l = some (l', net')) :
    ∃ c pc, l = .running c pc ∧ net' = { net with members := (loginStep net.members c pc).1 } ∧
      l' = match (loginStep net.members c pc).2 with
        | .inl pc' => .running c pc'
        | .inr res => .done (.ok res) := by
  cases l with
  | running c pc =>
    cases h
    exact ⟨c, pc, rfl, rfl, rfl⟩
  | idle => cases h
  | done res => cases h

/-- `steady` are the members that have been up all the time. -/
structure LoginSys (κ ρ : Type) (n : ℕ) where
  net : MemTransport ρ n
  logins : κ → Login n
  steady : Fin n → Bool

def LoginSys.start (net : MemTransport ρ n) : LoginSys κ ρ n := ⟨net, fun _ => .idle, net.up⟩

inductive LoginAct (κ : Type) (n : ℕ)
  | start (k : κ) (caller : Fin n) (clientToken : UInt64)
  | go (k : κ)
  | setUp (m : Fin n) (up : Bool)
  | setLeader (m : Fin n)

def loginSysStep [DecidableEq κ] (s : LoginSys κ ρ n) : LoginAct κ n → Option (LoginSys κ ρ n)
  | .start k caller clientToken =>
    if (s.logins k).isRunning then none
    else
      let (l, net) := s.net.startLogin caller clientToken
      some { s with net := net, logins := Function.update s.logins k l }
  | .go k => (s.net.goLogin (s.logins k)).map fun (l, net) =>
      { s with net := net, logins := Function.update s.logins k l }
  | .setUp m up => some { s with
      net := { s.net with up := Function.update s.net.up m up }
      steady := Function.update s.steady m (s.steady m && up) }
  | .setLeader m => some { s with net := { s.net with leader := m } }

end CraftClient.Cluster
