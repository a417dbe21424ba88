import CraftClient.Lib.Runs
import CraftClient.Replica.Model
import CraftClient.Router.RouteMap

/-! `MemTransport`: the members of a cluster, and the resolution rounds that their leader runs. -/

namespace CraftClient.Cluster

open Replica Router

variable {ρ : Type} {n : ℕ}

/-- Where `run_resolution` stands. `rest` are the members of the live set that the current loop has still to
visit; in `install` the first of them has just been seen without the slot. -/
inductive RoundPc (n : ℕ)
  | floor (rest : List (Fin n)) (floor : ℤ)
  | scan (d : ℤ) (rest : List (Fin n)) (copy : Option MemJournalSlot)
  | mark (d : ℤ) (rest : List (Fin n)) (verdicted : Bool)
  | fill (d : ℤ) (rest : List (Fin n)) (copy : MemJournalSlot)
  | install (d : ℤ) (rest : List (Fin n)) (copy : MemJournalSlot)
  | sync (rest : List (Fin n))
  | reply
  deriving DecidableEq

structure RoundCall (n : ℕ) where
  caller : Fin n
  upto : ℤ
  live : List (Fin n)

inductive Round (n : ℕ)
  | idle
  | running (c : RoundCall n) (pc : RoundPc n)
  | done (caller : Fin n) (res : Except ErrorCond ResolutionResult)

structure MemTransport (ρ : Type) (n : ℕ) where
  members : Fin n → MemReplica
  up : Fin n → Bool
  leader : Fin n
  term : UInt64
  rounds : ρ → Round n

def int64Max : ℤ := 2 ^ 63 - 1

def nextSlot (c : RoundCall n) (d : ℤ) : RoundPc n :=
  if d ≤ c.upto then .scan d c.live none else .sync c.live

def roundStep (members : Fin n → MemReplica) (c : RoundCall n) :
    RoundPc n → (Fin n → MemReplica) × (RoundPc n ⊕ ResolutionResult)
  | .floor [] floor => (members, .inl (nextSlot c (floor + 1)))
  | .floor (m :: rest) floor => (members, .inl (.floor rest (min floor (members m).peekLsns.commitLsn)))
  | .scan d [] none => (members, .inl (.mark d c.live false))
  | .scan d [] (some copy) => (members, .inl (.fill d c.live copy))
  | .scan d (m :: rest) copy =>
    (members, .inl (match (members m).peekSlot d with
      | none => .scan d rest copy
      | some s => if s.isEmpty then .mark d c.live true else .scan d rest (copy <|> some s)))
  | .mark d [] _ => (members, .inl (nextSlot c (d + 1)))
  | .mark d (m :: rest) verdicted =>
    (Function.update members m ((members m).coldMarkEmpty d), .inl (.mark d rest verdicted))
  | .fill d [] _ => (members, .inl (nextSlot c (d + 1)))
  | .fill d (m :: rest) copy =>
    (members, .inl (if ((members m).peekSlot d).isNone then .install d (m :: rest) copy
      else .fill d rest copy))
  | .install d [] copy => (members, .inl (.fill d [] copy))
  | .install d (m :: rest) copy =>
    (Function.update members m ((members m).coldInstallSlot d copy), .inl (.fill d rest copy))
  | .sync [] => (members, .inl .reply)
  | .sync (m :: rest) =>
    (Function.update members m ((members m).coldApplySync c.upto), .inl (.sync rest))
  | .reply => (members, .inr ⟨c.upto, (members c.caller).peekEmpties c.upto⟩)

namespace MemTransport

def firstLogin [NeZero n] (pageSize : UInt32) (clientToken : UInt64) : MemTransport ρ n :=
  ⟨fun _ => (MemReplica.new pageSize).coldApplyLogin clientToken 1, fun _ => true, 0, 1, fun _ => .idle⟩

def live (s : MemTransport ρ n) : List (Fin n) := (List.finRange n).filter s.up

def startRound (s : MemTransport ρ n) (caller : Fin n) (term : UInt64) (upto : ℤ) : Round n :=
  if ¬ s.up caller then .done caller (.error (.craft .replicaDown))
  else if term ≠ (s.members caller).term then .done caller (.error (.craft .staleTerm))
  else if caller ≠ s.leader then .done caller (.error (.craft .notLeader))
  else if term ≠ s.term then .done caller (.error (.craft .staleTerm))
  else if s.live.length < quorum n then .done caller (.error (.craft .noQuorum))
  else .running ⟨caller, upto, s.live⟩ (.floor s.live int64Max)

def goRound [DecidableEq ρ] (s : MemTransport ρ n) (i : ρ) : Option (MemTransport ρ n) :=
  match s.rounds i with
  | .running c pc =>
    let (members, next) := roundStep s.members c pc
    some { s with
      members := members
      rounds := Function.update s.rounds i (match next with
        | .inl pc' => .running c pc'
        | .inr res => .done c.caller (.ok res)) }
  | _ => none

end MemTransport

end CraftClient.Cluster
