import CraftClient.Router.Eligible
import CraftClient.Tracker.Steps

/-! The write path: legs, the resolution of slots in the tracker, and the folds of the route map. -/

namespace CraftClient.Client

open Runs Router

variable {ι : Type} {n : ℕ}

/-- `acks` holds the members whose leg acked, as `when_quorum` counts them; `resolved` the writes that have
called `resolve`; `applied` the dLSNs of the misses that folds have applied, in order. -/
structure WritePath (ι : Type) (n : ℕ) where
  sys : Tracker.Sys ι
  route : RouteMap n
  acks : ℤ → Finset (Fin n)
  resolved : Finset ℤ
  applied : List ℤ

inductive WriteAct (ι : Type) (n : ℕ)
  | reserve (i : ι) (addr len : UInt64)
  | go (i : ι) (weak : Bool)
  | create (d : ℤ)
  | complete (d : ℤ) (idx : Fin n) (acked : Bool)
  | resolve (i : ι) (d : ℤ) (oc : Tracker.SlotOutcome)
  | retire (i : ι) (upto : ℤ) (empties : List ℤ)
  | fold (F : ℤ)

def WritePath.login (n : ℕ) (maxInflight : UInt32) (L : ℤ) (lbaSize : UInt32) : WritePath ι n :=
  ⟨.start (Tracker.resetAt maxInflight L lbaSize), .reset n L, fun _ => ∅, ∅, []⟩

def foldBatch (r : RouteMap n) (F : ℤ) : List (PendingMiss n) :=
  if F ≤ r.folded ∨ r.foldTarget F ≤ r.folded then []
  else if r.foldTarget F < r.pendingHint then []
  else RouteMap.sortBatch (r.batch (r.foldTarget F))

def filling : Tracker.Thread → Option ℤ
  | .retireFill _ u => some u
  | _ => none

def mayResolve (s : WritePath ι n) (d : ℤ) (oc : Tracker.SlotOutcome) : Bool :=
  decide (d ∉ s.resolved) &&
    match oc with
    | .acked => decide (quorum n ≤ (s.acks d).card)
    | .failed | .empty => decide ((s.acks d).card < quorum n) &&
        (s.route.overlay.data d).any fun sl => sl.completed = Finset.univ
    | .inFlight => false

variable [DecidableEq ι] [Fintype ι] (leader : ι → Fin n)

def writeStep (s : WritePath ι n) : WriteAct ι n → Option (WritePath ι n)
  | .reserve i addr len =>
    (Tracker.step false s.sys (.call i (.reserve addr len))).map fun sys => { s with sys := sys }
  | .go i weak =>
    (Tracker.step false s.sys (.go i weak)).map fun sys =>
      { s with
        sys := sys
        route := match filling (s.sys.threads i) with
          | none => s.route
          | some u => s.route.noteFilled u (leader i) }
  | .create d =>
    if s.route.loginDlsn < d ∧ (s.route.overlay.data d).isNone then
      (s.sys.trk.tracker.data d).map fun sl =>
        { s with route := s.route.create d sl.addr sl.len }
    else none
  | .complete d idx acked =>
    if (s.route.overlay.data d).any fun sl => idx ∉ sl.completed then
      some { s with
        route := s.route.recordCompletion d idx acked
        acks := if acked then Function.update s.acks d (insert idx (s.acks d)) else s.acks }
    else none
  | .resolve i d oc =>
    if mayResolve s d oc then
      (Tracker.step false s.sys (.call i (.resolve d oc))).map fun sys =>
        { s with sys := sys, resolved := insert d s.resolved }
    else none
  | .retire i upto empties =>
    (Tracker.step false s.sys (.call i (.retireUpto upto empties))).map fun sys =>
      { s with sys := sys }
  | .fold F =>
    if F ≤ s.sys.trk.frontier then
      some { s with
        route := s.route.foldTo F
        applied := s.applied ++ (foldBatch s.route F).map PendingMiss.dlsn }
    else none

end CraftClient.Client
