import CraftClient.Cluster.Verdicts
import CraftClient.Tracker.Model

/-! The broadcast of one write: what may happen to each of its legs, and the outcome the client draws from them. -/

namespace CraftClient.Client

open Replica Router Cluster Tracker

variable {ρ : Type} {n : ℕ}

def NetError.roundTrip : NetError → Bool
  | .send | .recv | .closed | .malformed | .timedOut => true
  | .setup | .connect | .invalidArgument => false

abbrev LegResult := Except ErrorCond LsnPair

def deterministicReject (e : ErrorCond) : Bool := e = .invalidArgument || e = .craft .replicaDown

def LegResult.refused : LegResult → Bool
  | .ok _ => false
  | .error e => deterministicReject e

/-- What `write` resolves its slot to: acked as soon as a quorum of its legs have acked, else once every leg
has returned. -/
def writeOutcome (seen : Fin n → Option LegResult) : Option SlotOutcome :=
  if quorum n ≤ (Finset.univ.filter fun i => (seen i).any Except.isOk).card then some .acked
  else if ∀ i, (seen i).isSome then
    if (Finset.univ.filter fun i => (seen i).any LegResult.refused).card = n then some .empty
    else some .failed
  else none

inductive Backend
  | mem | tcp
  deriving DecidableEq, Repr

inductive Request
  | unsent | inFlight | lost
  | served (ans : LegResult)

structure Leg where
  request : Request
  seen : Option LegResult

inductive LegAct
  | send
  | lose
  | memDown
  | memReply
  | memTimeout
  | tcpHelo (status : UInt8)
  | tcpFault (e : NetError)
  | tcpFence (e : CraftError)
  | tcpReply (status : UInt8)
  | threw

/-- The status bytes that may answer a request: a server that refuses says so, and one that took the write
either says `ok` or fails after it with a status that is no verdict on the request. -/
def mayAnswer : LegResult → UInt8 → Bool
  | .ok _, status => status = Wire.ok || Wire.invalidArgument < status
  | .error _, status => status ≠ Wire.ok

def readReply (ans : LegResult) (status : UInt8) : LegResult :=
  if status ≠ Wire.ok then .error (statusToError status) else ans

def legStep (backend : Backend) (leg : Leg) : LegAct → Option Leg
  | .send =>
    match leg.request, leg.seen with
    | .unsent, none => some { leg with request := .inFlight }
    | _, _ => none
  | .lose =>
    match leg.request with
    | .inFlight => some { leg with request := .lost }
    | _ => none
  -- Both looks of `send_write` at the faults of its replica: nothing is delivered after either.
  | .memDown =>
    match backend, leg.request, leg.seen with
    | .mem, .unsent, none | .mem, .inFlight, none => some ⟨.lost, some (.error (.craft .replicaDown))⟩
    | _, _, _ => none
  | .memReply =>
    match backend, leg.request, leg.seen with
    | .mem, .served ans, none => some { leg with seen := some ans }
    | _, _, _ => none
  | .memTimeout =>
    match backend, leg.request, leg.seen with
    | .mem, .unsent, _ => none
    | .mem, _, none => some { leg with seen := some (.error .timedOut) }
    | _, _, _ => none
  | .tcpHelo status =>
    match backend, leg.request, leg.seen with
    | .tcp, .unsent, none =>
      if status ≠ Wire.ok then some { leg with seen := some (.error (statusToError status)) } else none
    | _, _, _ => none
  | .tcpFault e =>
    match backend, leg.request, leg.seen with
    | .tcp, .unsent, none => some { leg with seen := some (.error (netToError e)) }
    | .tcp, _, none =>
      if e.roundTrip then some { leg with seen := some (.error (netToError e)) } else none
    | _, _, _ => none
  -- The checks of the server before `srv_write`.
  | .tcpFence e =>
    match backend, leg.request with
    | .tcp, .inFlight => some { leg with request := .served (.error (.craft e)) }
    | _, _ => none
  | .tcpReply status =>
    match backend, leg.request, leg.seen with
    | .tcp, .served ans, none =>
      if mayAnswer ans status then some { leg with seen := some (readReply ans status) } else none
    | _, _, _ => none
  -- `write_leg` swallows the exception and keeps the value it began with.
  | .threw =>
    match leg.seen with
    | none => some { leg with seen := some (.error (.craft .replicaDown)) }
    | some _ => none

lemma legStep_mem {leg leg' : Leg} {a : LegAct} (h : legStep .mem leg a = some leg') :
    (∀ p, leg'.request = .served (.ok p) ↔ leg.request = .served (.ok p)) ∧
      (leg'.seen = leg.seen ∨
        leg.seen = none ∧ ∀ p, leg'.seen = some (.ok p) → leg.request = .served (.ok p)) := by
  cases a with
  | send | lose | memDown | memReply | memTimeout | threw =>
    simp only [legStep] at h
    split at h <;> cases h
    all_goals simp_all
  | tcpHelo | tcpFault | tcpFence | tcpReply => simp [legStep] at h

structure WriteReq where
  hdr : ClientHdr
  dlsn : ℤ
  addr : UInt64
  len : UInt64
  bytes : Option (List UInt8)

def WriteReq.slot (P : UInt32) (q : WriteReq) : MemJournalSlot :=
  ⟨q.hdr.term, q.addr / P.toUInt64, (q.len / P.toUInt64).toUInt32, q.bytes.isNone, false, q.bytes⟩

lemma WriteReq.writeSlot_eq {P : UInt32} {r : MemReplica} (hP : r.pageSize = P) (q : WriteReq) :
    r.writeSlot q.hdr q.addr q.len q.bytes = q.slot P := by
  rw [MemReplica.writeSlot, MemReplica.blockSize, hP]
  rfl

structure Broadcast (ρ : Type) (n : ℕ) where
  cluster : AckSys ρ n
  legs : Fin n → Leg
  outcome : Option SlotOutcome

def Broadcast.start (cluster : AckSys ρ n) : Broadcast ρ n := ⟨cluster, fun _ => ⟨.unsent, none⟩, none⟩

inductive BcastAct (ρ : Type) (n : ℕ)
  | leg (i : Fin n) (a : LegAct)
  | deliver (i : Fin n)
  | finish
  | resolveLocal (m : Fin n) (hdr : ClientHdr) (upto : ℤ)
  | other (a : AckAct ρ n)

def spares (req : WriteReq) : AckAct ρ n → Bool
  | .deliver _ hdr d _ _ _ => d ≠ req.dlsn || hdr.term ≠ req.hdr.term
  | _ => true

variable [DecidableEq ρ] (backend : Fin n → Backend) (req : WriteReq)

def bcastStep (s : Broadcast ρ n) : BcastAct ρ n → Option (Broadcast ρ n)
  | .leg i a => (legStep (backend i) (s.legs i) a).map fun leg =>
      { s with legs := Function.update s.legs i leg }
  | .deliver i =>
    match (s.legs i).request with
    | .inFlight =>
      if backend i = .mem ∧ ¬ s.cluster.net.up i then none
      else
        let ans := (s.cluster.net.members i).doWrite req.hdr req.dlsn req.addr req.len req.bytes
        (ackStep s.cluster (.deliver i req.hdr req.dlsn req.addr req.len req.bytes)).map fun cluster =>
          { s with
            cluster := cluster
            legs := Function.update s.legs i { s.legs i with request := .served (ans.map Prod.fst) } }
    | _ => none
  | .finish =>
    match s.outcome, writeOutcome fun i => (s.legs i).seen with
    | none, some oc => some { s with outcome := some oc }
    | _, _ => none
  | .resolveLocal m hdr upto =>
    match (s.cluster.net.members m).doResolveLocal hdr upto with
    | .ok (_, r) => some { s with cluster := { s.cluster with net := s.cluster.net.setMember m r } }
    | .error _ => some s
  | .other a =>
    if spares req a then (ackStep s.cluster a).map fun cluster => { s with cluster := cluster }
    else none

end CraftClient.Client
