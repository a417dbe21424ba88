import CraftClient.Lib.Runs
import CraftClient.Lib.StreamTracker

/-! `dlsn_tracker`, cut at every access to shared memory; a weak compare-exchange may fail spuriously. -/

namespace CraftClient.Tracker

inductive SlotOutcome
  | inFlight | acked | failed | empty
  deriving DecidableEq, Repr

def isResolved : SlotOutcome → Bool
  | .acked | .empty => true
  | .inFlight | .failed => false

structure DlsnSlot where
  addr : UInt64
  len : UInt64
  outcome : SlotOutcome
  deriving DecidableEq, Repr

/-- `resolution_gate`: events are numbered, and every event below `cur` has been completed. -/
structure Gate where
  cur : ℕ
  waiters : ℕ
  deriving DecidableEq, Repr

structure DlsnTracker where
  lbaSize : UInt64
  scanCap : ℤ
  nextDlsn : ℤ
  frontier : ℤ
  highestAcked : ℤ
  lastTrunc : ℤ
  winnerScans : ℕ
  gate : Gate
  tracker : StreamTracker DlsnSlot

def kMaxBlocks : ℕ := 4096
def kMaxSegments : ℕ := 8
def kTruncBatch : ℤ := 512
def kScanCapFloor : ℤ := 1024
def kScanCapPerInflight : ℤ := 8

def resetAt (maxInflight : UInt32) (loginDlsn : ℤ) (lbaSize : UInt32) : DlsnTracker where
  lbaSize := lbaSize.toUInt64
  scanCap := max kScanCapFloor (kScanCapPerInflight * maxInflight.toNat)
  nextDlsn := loginDlsn + 1
  frontier := loginDlsn
  highestAcked := loginDlsn
  lastTrunc := loginDlsn
  winnerScans := 0
  gate := ⟨0, 0⟩
  tracker := .emplace loginDlsn

namespace DlsnTracker

def issued (t : DlsnTracker) : ℤ := t.nextDlsn - 1

def readHorizon (t : DlsnTracker) : ℤ := max t.frontier t.highestAcked

def outcome (t : DlsnTracker) (d : ℤ) : Option SlotOutcome :=
  (t.tracker.data d).map DlsnSlot.outcome

def Resolved (t : DlsnTracker) (d : ℤ) : Prop :=
  ∃ oc, t.outcome d = some oc ∧ isResolved oc = true

instance (t : DlsnTracker) (d : ℤ) : Decidable (t.Resolved d) :=
  decidable_of_iff ((t.outcome d).any isResolved = true) (by
    cases h : t.outcome d <;> simp [Resolved, h])

def setOutcome (t : DlsnTracker) (d : ℤ) (oc : SlotOutcome) : DlsnTracker :=
  { t with tracker := t.tracker.modify d (fun s => { s with outcome := oc }) }

def setCompleted (t : DlsnTracker) (d : ℤ) : DlsnTracker :=
  { t with tracker := t.tracker.complete d }

end DlsnTracker

/-- Where a `resolve` call stands. `load` to `recomplete` are inside `StreamTracker::update`. -/
inductive ResolvePc
  | load | store | complete | recomplete
  | raiseLoad | raise (cur : ℤ)
  | advLoad | advIssued (f : ℤ) | advScan (f issued : ℤ) | advCas (f nf : ℤ)
  | truncLoad (nf : ℤ) | truncCas (nf lt : ℤ) | truncate (nf : ℤ)
  | signal | fire
  deriving DecidableEq, Repr

def resolveStep (t : DlsnTracker) (d : ℤ) (oc : SlotOutcome) (weak : Bool) :
    ResolvePc → DlsnTracker × Option ResolvePc
  | .load =>
    match t.tracker.find d with
    | none => (t, some .signal)
    | some s => (t, some (if isResolved s.outcome then .recomplete else .store))
  | .store => (t.setOutcome d oc, some (if isResolved oc then .complete else .signal))
  | .complete => (t.setCompleted d, some (if oc = .acked then .raiseLoad else .advLoad))
  | .recomplete => (t.setCompleted d, some .signal)
  | .raiseLoad => (t, some (.raise t.highestAcked))
  | .raise cur =>
    if d ≤ cur then (t, some .advLoad)
    else if weak ∨ t.highestAcked ≠ cur then (t, some (.raise t.highestAcked))
    else ({ t with highestAcked := d }, some .advLoad)
  | .advLoad => (t, some (.advIssued t.frontier))
  | .advIssued f => (t, some (.advScan f t.issued))
  | .advScan f issued =>
    let nf := min (t.tracker.completedUpto (f + 1)) issued
    (t, some (if nf ≤ f then .signal else .advCas f nf))
  | .advCas f nf =>
    if weak ∨ t.frontier ≠ f then (t, some (.advIssued t.frontier))
    else ({ t with frontier := nf }, some (.truncLoad nf))
  | .truncLoad nf =>
    (t, some (if kTruncBatch ≤ nf - t.lastTrunc then .truncCas nf t.lastTrunc else .signal))
  | .truncCas nf lt =>
    if t.lastTrunc = lt then ({ t with lastTrunc := nf }, some (.truncate nf))
    else (t, some .signal)
  | .truncate nf => ({ t with tracker := t.tracker.truncate nf }, some .signal)
  | .signal => (t, if t.gate.waiters = 0 then none else some .fire)
  | .fire => ({ t with gate := { t.gate with cur := t.gate.cur + 1 } }, none)

structure RetireFrame where
  hi : ℤ
  empties : List ℤ
  h : ℤ
  deriving DecidableEq, Repr

inductive Thread
  | idle
  | create (d : ℤ) (addr len : UInt64)
  | resolve (d : ℤ) (oc : SlotOutcome) (pc : ResolvePc) (ret : Option RetireFrame)
  | retireHi (upto : ℤ) (empties : List ℤ)
  | retireFrom (hi : ℤ) (empties : List ℤ)
  | retireScan (fr : RetireFrame)
  | retireVisit (fr : RetireFrame) (u : ℤ)
  | retireFill (fr : RetireFrame) (u : ℤ)
  deriving DecidableEq, Repr

namespace Thread

/-- Whether the thread holds the `StreamTracker` lock in shared mode. -/
def inUpdate : Thread → Bool
  | .resolve _ _ .load _ | .resolve _ _ .store _ => true
  | .resolve _ _ .complete _ | .resolve _ _ .recomplete _ => true
  | _ => false

def truncates : Thread → Bool
  | .resolve _ _ (.truncate _) _ => true
  | _ => false

def resume : Option RetireFrame → Thread
  | none => .idle
  | some fr => .retireScan fr

end Thread

def threadStep (t : DlsnTracker) (weak : Bool) : Thread → Option (DlsnTracker × Thread)
  | .idle => none
  | .create d addr len =>
    some ({ t with tracker := t.tracker.create d ⟨addr, len, .inFlight⟩ }, .idle)
  | .resolve d oc pc ret =>
    match resolveStep t d oc weak pc with
    | (t', some pc') => some (t', .resolve d oc pc' ret)
    | (t', none) => some (t', .resume ret)
  | .retireHi upto empties => some (t, .retireFrom (min upto t.issued) empties)
  | .retireFrom hi empties => some (t, .retireScan ⟨hi, empties, t.frontier + 1⟩)
  | .retireScan fr =>
    let u := min (t.tracker.completedUpto fr.h) fr.hi + 1
    some (t, if fr.hi < fr.h ∨ fr.hi < u then .idle else .retireVisit fr u)
  | .retireVisit fr u =>
    let fr' := { fr with h := u + 1 }
    some (t,
      if (t.tracker.find u).isNone then .retireScan fr'
      else if u ∈ fr.empties then .resolve u .empty .load (some fr')
      else .retireFill fr' u)
  -- the callback `on_filled(u)` runs here; it does not touch the tracker
  | .retireFill fr u => some (t, .resolve u .acked .load (some fr))

inductive Call
  | reserve (addr len : UInt64)
  | resolve (d : ℤ) (oc : SlotOutcome)
  | retireUpto (upto : ℤ) (empties : List ℤ)
  deriving DecidableEq, Repr

/-- The tracker, what every thread is doing, and the dLSNs for which a `resolve(acked)` call has
returned while the slot was acked. -/
structure Sys (ι : Type) where
  trk : DlsnTracker
  threads : ι → Thread
  ackReturned : Finset ℤ

variable {ι : Type} [DecidableEq ι]

def Sys.start (t : DlsnTracker) : Sys ι := ⟨t, fun _ => .idle, ∅⟩

def startCall (t : DlsnTracker) : Call → Option (DlsnTracker × Thread)
  | .reserve addr len => some ({ t with nextDlsn := t.nextDlsn + 1 }, .create t.nextDlsn addr len)
  | .resolve d oc => if (t.tracker.data d).isSome then some (t, .resolve d oc .load none) else none
  | .retireUpto upto empties => some (t, .retireHi upto empties)

def returned (t : DlsnTracker) (th : Thread) (weak : Bool) (acks : Finset ℤ) : Finset ℤ :=
  match th with
  | .resolve d .acked pc _ =>
    if (resolveStep t d .acked weak pc).2 = none ∧ t.outcome d = some .acked then insert d acks
    else acks
  | _ => acks

inductive Act (ι : Type)
  | call (i : ι) (c : Call)
  | go (i : ι) (weak : Bool)
  deriving DecidableEq, Repr

/-- `busy` says that someone outside `threads` holds the `StreamTracker` lock in shared mode. -/
def step [Fintype ι] (busy : Bool) (s : Sys ι) : Act ι → Option (Sys ι)
  | .call i c =>
    if s.threads i = .idle then
      (startCall s.trk c).map fun r =>
        { s with trk := r.1, threads := Function.update s.threads i r.2 }
    else none
  | .go i weak =>
    if (s.threads i).truncates ∧ (busy ∨ ∃ j, (s.threads j).inUpdate) then none
    else (threadStep s.trk weak (s.threads i)).map fun r =>
      ⟨r.1, Function.update s.threads i r.2, returned s.trk (s.threads i) weak s.ackReturned⟩

end CraftClient.Tracker
