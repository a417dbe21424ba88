import CraftClient.Tracker.Steps

/-! `plan_read`, with `compute` and `split`, cut at every look at shared memory. -/

namespace CraftClient.Tracker

def overlaps (aOff aLen bOff bLen : UInt64) : Bool :=
  aOff < bOff + bLen && bOff < aOff + aLen

structure ReadSegment where
  addr : UInt64
  len : UInt64
  H : ℤ
  deriving DecidableEq, Repr

structure PlanOutcome where
  segs : List ReadSegment
  failed : Bool
  deriving DecidableEq, Repr

namespace PlanOutcome

def stall (p : PlanOutcome) : Bool := p.segs.isEmpty && !p.failed

def degraded (p : PlanOutcome) : Bool := p.segs.isEmpty && p.failed

def fenced (anyFailed : Bool) : PlanOutcome := ⟨[], anyFailed⟩

def oneSegment (addr len : UInt64) (H : ℤ) : PlanOutcome := ⟨[⟨addr, len, H⟩], false⟩

end PlanOutcome

def segLoop (addr lbaSize : UInt64) :
    List ℤ → ℕ → ℕ → ℤ → List ReadSegment → Option (List ReadSegment)
  | [], b, segStart, cur, segs =>
    if segs.length = kMaxSegments then none
    else some (segs ++
      [⟨addr + .ofNat segStart * lbaSize, .ofNat (b - segStart) * lbaSize, cur⟩])
  | h :: hs, b, segStart, cur, segs =>
    if h = cur then segLoop addr lbaSize hs (b + 1) segStart cur segs
    else if segs.length = kMaxSegments then none
    else segLoop addr lbaSize hs (b + 1) b h (segs ++
      [⟨addr + .ofNat segStart * lbaSize, .ofNat (b - segStart) * lbaSize, cur⟩])

def horizonOf (Ha : ℤ) (u : ℤ) : ℤ := if u < 0 then Ha else u - 1

def segments (addr lbaSize : UInt64) (Ha : ℤ) (anyFailed : Bool) (ustar : List ℤ) : PlanOutcome :=
  match ustar.map (horizonOf Ha) with
  | [] => .fenced anyFailed
  | h :: hs =>
    match segLoop addr lbaSize hs 1 0 h [] with
    | none => .fenced anyFailed
    | some segs => ⟨segs, false⟩

def blockSpan (addr len lbaSize : UInt64) (nblk : ℕ) (s : DlsnSlot) : ℕ × ℕ :=
  let lo := max addr s.addr
  let hi := min (addr + len) (s.addr + s.len)
  (((lo - addr) / lbaSize).toNat, min (nblk - 1) ((hi - 1 - addr) / lbaSize).toNat)

def visitWinner (addr len lbaSize : UInt64) (idx : ℤ) (s : DlsnSlot) (ustar : List ℤ) : List ℤ :=
  if s.outcome = .empty then ustar
  else if ¬ overlaps addr len s.addr s.len then ustar
  else
    let (b0, b1) := blockSpan addr len lbaSize ustar.length s
    ustar.mapIdx fun b u =>
      if b0 ≤ b ∧ b ≤ b1 then
        if s.outcome = .acked then -1 else if u < 0 then idx else u
      else u

inductive ComputePc
  | loadFrontier
  | loadAcked (F : ℤ)
  | scan (Ha h umin : ℤ) (anyFailed anyGap : Bool)
  | visit (Ha u umin : ℤ) (anyFailed anyGap : Bool)
  | split (Ha umin : ℤ) (anyFailed : Bool)
  | winners (Ha idx : ℤ) (anyFailed : Bool) (ustar : List ℤ)
  deriving DecidableEq, Repr

def afterScan (t : DlsnTracker) (addr len : UInt64) (Ha umin : ℤ) (anyFailed anyGap : Bool) :
    ComputePc ⊕ PlanOutcome :=
  if umin < 0 then .inr (.oneSegment addr len Ha)
  else if anyGap ∨ t.scanCap < Ha - umin then .inr (.fenced anyFailed)
  else .inl (.split Ha umin anyFailed)

def computeStep (t : DlsnTracker) (addr len : UInt64) :
    ComputePc → DlsnTracker × (ComputePc ⊕ PlanOutcome)
  | .loadFrontier => (t, .inl (.loadAcked t.frontier))
  | .loadAcked F =>
    let Ha := t.highestAcked
    (t, if Ha ≤ F then .inr (.oneSegment addr len (max F Ha))
      else .inl (.scan Ha (F + 1) (-1) false false))
  | .scan Ha h umin anyFailed anyGap =>
    let u := t.tracker.completedUpto h + 1
    (t, if Ha < h ∨ Ha < u ∨ u < h then afterScan t addr len Ha umin anyFailed anyGap
      else .inl (.visit Ha u umin anyFailed anyGap))
  | .visit Ha u umin anyFailed anyGap =>
    let hits := (t.tracker.find u).all fun s => overlaps addr len s.addr s.len
    let isFailed := (t.tracker.find u).any fun s => s.outcome = .failed
    (t, .inl (if hits then
        .scan Ha (u + 1) (if umin < 0 then u else umin) (anyFailed || isFailed)
          (anyGap || (t.tracker.find u).isNone)
      else .scan Ha (u + 1) umin anyFailed anyGap))
  | .split Ha umin anyFailed =>
    let nblk := if t.lbaSize ≠ 0 then (len / t.lbaSize).toNat else 0
    ({ t with winnerScans := t.winnerScans + 1 },
      if nblk = 0 ∨ kMaxBlocks < nblk then .inr (.fenced anyFailed)
      else .inl (.winners Ha umin anyFailed (List.replicate nblk (-1))))
  | .winners Ha idx anyFailed ustar =>
    (t, if Ha < idx then .inr (segments addr t.lbaSize Ha anyFailed ustar)
      else match t.tracker.find idx with
        | none => .inl (.winners Ha (idx + 1) anyFailed ustar)
        | some s => .inl (.winners Ha (idx + 1) anyFailed
            (visitWinner addr len t.lbaSize idx s ustar)))

inductive PlanPc
  | compute (ev : Option ℕ) (pc : ComputePc)
  | arm | enter (ev : ℕ) | await (ev : ℕ) | leave (p : Option PlanOutcome)
  | done (p : PlanOutcome)
  deriving DecidableEq, Repr

def afterCompute (p : PlanOutcome) : Option ℕ → PlanPc
  | none => if p.stall then .arm else .done p
  | some ev => if p.stall then .await ev else .leave (some p)

def planStep (t : DlsnTracker) (addr len : UInt64) : PlanPc → Option (DlsnTracker × PlanPc)
  | .compute ev pc =>
    match computeStep t addr len pc with
    | (t', .inl pc') => some (t', .compute ev pc')
    | (t', .inr p) => some (t', afterCompute p ev)
  | .arm => some (t, .enter t.gate.cur)
  | .enter ev =>
    some ({ t with gate := { t.gate with waiters := t.gate.waiters + 1 } },
      .compute (some ev) .loadFrontier)
  | .await ev => if ev < t.gate.cur then some (t, .leave none) else none
  | .leave p =>
    some ({ t with gate := { t.gate with waiters := t.gate.waiters - 1 } },
      match p with
      | none => .arm
      | some p => .done p)
  | .done _ => none

/-- A call of `plan_read`, with the frontier and the acknowledged dLSNs at its start. -/
structure PlanCall where
  addr : UInt64
  len : UInt64
  startFrontier : ℤ
  startAcks : Finset ℤ

structure PlanRead extends PlanCall where
  pc : PlanPc

namespace PlanRead

def isDone (r : PlanRead) : Bool :=
  match r.pc with
  | .done _ => true
  | _ => false

def result (r : PlanRead) : Option (List ReadSegment) :=
  match r.pc with
  | .done p => if p.degraded then none else some p.segs
  | _ => none

def inForeach (r : PlanRead) : Bool :=
  match r.pc with
  | .compute _ (.winners ..) => true
  | _ => false

end PlanRead

structure PlanSys (ι κ : Type) where
  sys : Sys ι
  reads : κ → Option PlanRead

inductive PlanAct (ι κ : Type)
  | write (a : Act ι)
  | planRead (k : κ) (addr len : UInt64)
  | read (k : κ)
  deriving DecidableEq, Repr

variable {ι κ : Type} [DecidableEq ι] [Fintype ι] [DecidableEq κ] [Fintype κ]

def PlanSys.start (t : DlsnTracker) : PlanSys ι κ := ⟨.start t, fun _ => none⟩

def planSysStep (s : PlanSys ι κ) : PlanAct ι κ → Option (PlanSys ι κ)
  | .write a =>
    (step (decide (∃ k, (s.reads k).any PlanRead.inForeach)) s.sys a).map fun sys =>
      { s with sys := sys }
  | .planRead k addr len =>
    if (s.reads k).all PlanRead.isDone then
      some { s with reads := Function.update s.reads k (some
        ⟨⟨addr, len, s.sys.trk.frontier, s.sys.ackReturned⟩, .compute none .loadFrontier⟩) }
    else none
  | .read k => do
    let r ← s.reads k
    let (t, pc) ← planStep s.sys.trk r.addr r.len r.pc
    some ⟨{ s.sys with trk := t }, Function.update s.reads k (some { r with pc := pc })⟩

end CraftClient.Tracker
