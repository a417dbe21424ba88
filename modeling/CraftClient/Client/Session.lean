import CraftClient.Client.Broadcast
import CraftClient.Client.WritePath
import CraftClient.Tracker.Plan

/-! One session of `craft_client` over a `MemTransport` cluster: writes, reads, keep-alives and rounds. -/

namespace CraftClient.Client

open Replica Router Cluster Tracker

variable {ι κ ρ : Type} {n : ℕ}

inductive LegStage
  | waiting | recorded | done
  deriving DecidableEq, Repr

structure WriteLeg where
  leg : Leg
  stage : LegStage

structure WriteCall (n : ℕ) where
  req : WriteReq
  legs : Fin n → WriteLeg

def WriteCall.seen (w : WriteCall n) (m : Fin n) : Option LegResult :=
  if (w.legs m).stage = .done then (w.legs m).leg.seen else none

def WriteCall.setLeg (w : WriteCall n) (m : Fin n) (l : WriteLeg) : WriteCall n :=
  { w with legs := Function.update w.legs m l }

abbrev ReadReply := Option (Except ErrorCond ReadResult)

structure Attempt (n : ℕ) where
  segs : List ReadSegment
  hdr : ClientHdr
  Hmax : ℤ
  start : Fin n
  hop : ℕ
  anyEligible : Bool

inductive ReadPc (n : ℕ)
  | plan
  | makeHdr (segs : List ReadSegment)
  | frontier (segs : List ReadSegment) (hdr : ClientHdr)
  | fold (segs : List ReadSegment) (hdr : ClientHdr) (F : ℤ)
  | test (a : Attempt n)
  | await (a : Attempt n) (replies : List ReadReply)
  | sync (idx : Fin n) (results : List ReadResult)
  | done (res : Except ErrorCond (List Block))

def ReadPc.returned : ReadPc n → Option (List Block)
  | .done (.ok blocks) => some blocks
  | _ => none

/-- `startEmptied` holds the dLSNs that rounds had reported Empty when the read was invoked. -/
structure ClientRead (n : ℕ) where
  startEmptied : Finset ℤ
  pc : ReadPc n

/-- `beats` are the commit points in the keep-alive replies of a member, `filler` the member whose verdicts
a thread retires slots by, `emptied` the dLSNs that rounds have reported Empty. -/
structure Session (ι κ ρ : Type) (n : ℕ) where
  plan : PlanSys ι κ
  route : RouteMap n
  net : MemTransport ρ n
  term : UInt64
  clientToken : UInt64
  writes : ℤ → Option (WriteCall n)
  resolved : Finset ℤ
  filler : ι → Fin n
  beats : Fin n → List ℤ
  reads : κ → Option (ClientRead n)
  emptied : Finset ℤ

namespace Session

variable (s : Session ι κ ρ n)

def trk : DlsnTracker := s.plan.sys.trk

def makeHdr : ClientHdr := ⟨s.term, s.trk.frontier, s.route.allCommitted, s.clientToken⟩

def setWrite (d : ℤ) (w : WriteCall n) : Session ι κ ρ n :=
  { s with writes := Function.update s.writes d (some w) }

def setMember (m : Fin n) (r : MemReplica) : Session ι κ ρ n := { s with net := s.net.setMember m r }

def login [NeZero n] (maxInflight : UInt32) (L : ℤ) (lbaSize : UInt32) (net : MemTransport ρ n)
    (clientToken : UInt64) : Session ι κ ρ n where
  plan := .start (resetAt maxInflight L lbaSize)
  route := .reset n L
  net := net
  term := net.term
  clientToken := clientToken
  writes _ := none
  resolved := ∅
  filler _ := 0
  beats _ := []
  reads _ := none
  emptied := ∅

end Session

def planReqs (addr len : UInt64) : List ReadSegment → List ReadSegment
  | [seg] => [⟨addr, len, seg.H⟩]
  | segs => segs

def collect : List ReadReply → Option (Except ErrorCond (List ReadResult))
  | [] => some (.ok [])
  | none :: _ => none
  | some (.error e) :: rest => (collect rest).map fun _ => .error e
  | some (.ok r) :: rest => (collect rest).map fun rs => rs.map (r :: ·)

def commitOf : List ReadResult → ℤ
  | [r] => r.lsns.commitLsn
  | rs => rs.foldl (fun c r => max c r.lsns.commitLsn) (-1)

def transportFailure (e : ErrorCond) : Bool := e = .craft .replicaDown || e = .timedOut

def noMember (anyEligible : Bool) : CraftError := if anyEligible then .noQuorum else .notEligible

variable [NeZero n]

def Attempt.target (a : Attempt n) : Fin n := Fin.ofNat n (a.start + a.hop)

def readStep (s : Session ι κ ρ n) (r : PlanRead) (start : Fin n) :
    ReadPc n → Option (RouteMap n × ReadPc n)
  | .plan =>
    if r.isDone then some (s.route, match r.result with
      | none => .done (.error (.craft .noQuorum))
      | some segs => .makeHdr segs)
    else none
  | .makeHdr segs => some (s.route, .frontier segs s.makeHdr)
  | .frontier segs hdr => some (s.route, .fold segs hdr s.trk.frontier)
  | .fold segs hdr F => some (s.route.foldTo F,
      .test ⟨segs, hdr, segs.foldl (fun H seg => max H seg.H) F, start, 0, false⟩)
  | .test a =>
    if n ≤ a.hop then
      some (s.route, .done (.error (.craft (noMember a.anyEligible))))
    else if s.route.eligible a.target r.addr r.len a.Hmax then
      some (s.route, .await { a with anyEligible := true }
        ((planReqs r.addr r.len a.segs).map fun _ => none))
    else some (s.route, .test { a with hop := a.hop + 1 })
  | .await a replies =>
    match collect replies with
    | none => none
    | some (.ok results) => some (s.route, .sync a.target results)
    | some (.error e) =>
      if transportFailure e then some (s.route, .test { a with hop := a.hop + 1 })
      else some (s.route, .done (.error e))
  | .sync idx results => some (s.route.advanceSynced idx (commitOf results),
      .done (.ok (results.flatMap ReadResult.blocks)))
  | .done _ => none

inductive SessAct (ι κ ρ : Type) (n : ℕ)
  | reserve (i : ι) (addr len : UInt64)
  | go (i : ι) (weak : Bool)
  | create (d : ℤ)
  | issue (d : ℤ) (bytes : Option (List UInt8))
  | leg (d : ℤ) (m : Fin n) (a : LegAct)
  | deliver (d : ℤ) (m : Fin n)
  | record (d : ℤ) (m : Fin n)
  | sync (d : ℤ) (m : Fin n)
  | resolve (i : ι) (d : ℤ)
  | fold (F : ℤ)
  | keepAlive (m : Fin n) (C : ℤ)
  | report (m : Fin n) (C : ℤ)
  | setUp (m : Fin n) (up : Bool)
  | setLeader (m : Fin n)
  | request (j : ρ) (m : Fin n) (upto : ℤ)
  | round (j : ρ)
  | drop (j : ρ)
  | retire (i : ι) (j : ρ)
  | startRead (k : κ) (addr len : UInt64)
  | planRead (k : κ)
  | read (k : κ) (start : Fin n)
  | serve (k : κ) (j : ℕ)
  | fail (k : κ) (j : ℕ) (timedOut : Bool)

def ClientRead.isDone (r : ClientRead n) : Bool :=
  match r.pc with
  | .done _ => true
  | _ => false

def reported : Round n → List ℤ
  | .done _ (.ok res) => res.emptySlots
  | _ => []

namespace Session

variable [DecidableEq ι] [Fintype ι] [DecidableEq κ] [Fintype κ] (s : Session ι κ ρ n)

def tracks (a : PlanAct ι κ) : Option (Session ι κ ρ n) :=
  (planSysStep s.plan a).map fun plan => { s with plan := plan }

def precheck (addr len : UInt64) : Bool :=
  s.trk.lbaSize ≠ 0 && len ≠ 0 && addr % s.trk.lbaSize = 0 && len % s.trk.lbaSize = 0

def deliver (d : ℤ) (w : WriteCall n) (m : Fin n) : Session ι κ ρ n :=
  let q := w.req
  let ans := (s.net.members m).doWrite q.hdr q.dlsn q.addr q.len q.bytes
  let l := w.legs m
  let s' := s.setWrite d
    (w.setLeg m { l with leg := { l.leg with request := .served (ans.map Prod.fst) } })
  match ans with
  | .ok (_, r) => s'.setMember m r
  | .error _ => s'

def setRead (k : κ) (r : ClientRead n) (pc : ReadPc n) : Session ι κ ρ n :=
  { s with reads := Function.update s.reads k (some { r with pc := pc }) }

end Session

variable [DecidableEq ι] [Fintype ι] [DecidableEq κ] [Fintype κ] [DecidableEq ρ]

def sessStep (s : Session ι κ ρ n) : SessAct ι κ ρ n → Option (Session ι κ ρ n)
  | .reserve i addr len =>
    if s.precheck addr len then s.tracks (.write (.call i (.reserve addr len))) else none
  | .go i weak => (s.tracks (.write (.go i weak))).map fun s' =>
      { s' with route := match filling (s.plan.sys.threads i) with
          | none => s.route
          | some u => s.route.noteFilled u (s.filler i) }
  | .create d =>
    if s.route.loginDlsn < d ∧ (s.route.overlay.data d).isNone then
      (s.trk.tracker.data d).map fun sl => { s with route := s.route.create d sl.addr sl.len }
    else none
  | .issue d bytes =>
    if (s.writes d).isSome then none
    else (s.route.overlay.data d).map fun sl =>
      s.setWrite d ⟨⟨s.makeHdr, d, sl.addr, sl.len, bytes⟩, fun _ => ⟨⟨.unsent, none⟩, .waiting⟩⟩
  | .leg d m a => do
    let w ← s.writes d
    let leg ← legStep .mem (w.legs m).leg a
    some (s.setWrite d (w.setLeg m { w.legs m with leg := leg }))
  | .deliver d m => do
    let w ← s.writes d
    match (w.legs m).leg.request with
    | .inFlight => if s.net.up m then some (s.deliver d w m) else none
    | _ => none
  | .record d m => do
    let w ← s.writes d
    match (w.legs m).stage, (w.legs m).leg.seen with
    | .waiting, some res =>
      let stage := if res.isOk then .recorded else .done
      some { s.setWrite d (w.setLeg m { w.legs m with stage := stage }) with
        route := s.route.recordCompletion d m res.isOk }
    | _, _ => none
  | .sync d m => do
    let w ← s.writes d
    match (w.legs m).stage, (w.legs m).leg.seen with
    | .recorded, some (.ok l) =>
      some { s.setWrite d (w.setLeg m { w.legs m with stage := .done }) with
        route := s.route.advanceSynced m l.commitLsn }
    | _, _ => none
  | .resolve i d => do
    let w ← s.writes d
    if d ∈ s.resolved then none
    else do
      let oc ← writeOutcome w.seen
      let s' ← s.tracks (.write (.call i (.resolve d oc)))
      some { s' with resolved := insert d s.resolved }
  | .fold F => if F ≤ s.trk.frontier then some { s with route := s.route.foldTo F } else none
  | .keepAlive m C =>
    if C ≤ s.trk.frontier ∧ s.net.up m then
      match (s.net.members m).doKeepAlive ⟨s.term, C, s.route.allCommitted, s.clientToken⟩ with
      | .ok (l, r) => some { s.setMember m r with
          beats := Function.update s.beats m (l.commitLsn :: s.beats m) }
      | .error _ => some s
    else none
  | .report m C => if C ∈ s.beats m then some { s with route := s.route.advanceSynced m C } else none
  | .setUp m up => some { s with net := { s.net with up := Function.update s.net.up m up } }
  | .setLeader m => some { s with net := { s.net with leader := m } }
  | .request j m upto =>
    match s.net.rounds j with
    | .idle => some { s with net := { s.net with
        rounds := Function.update s.net.rounds j (s.net.startRound m s.term upto) } }
    | _ => none
  | .round j => (s.net.goRound j).map fun net =>
      { s with net := net, emptied := s.emptied ∪ (reported (net.rounds j)).toFinset }
  | .drop j =>
    match s.net.rounds j with
    | .done _ _ => some { s with net := { s.net with rounds := Function.update s.net.rounds j .idle } }
    | _ => none
  | .retire i j =>
    match s.net.rounds j with
    | .done m (.ok res) =>
      (s.tracks (.write (.call i (.retireUpto res.resolvedUpto res.emptySlots)))).map fun s' =>
        { s' with
          filler := Function.update s.filler i m
          net := { s.net with rounds := Function.update s.net.rounds j .idle } }
    | _ => none
  | .startRead k addr len =>
    if s.precheck addr len ∧ (s.reads k).all ClientRead.isDone then
      (s.tracks (.planRead k addr len)).map fun s' =>
        { s' with reads := Function.update s.reads k (some ⟨s.emptied, .plan⟩) }
    else none
  | .planRead k => s.tracks (.read k)
  | .read k start => do
    let c ← s.reads k
    let r ← s.plan.reads k
    let (route, pc) ← readStep s r start c.pc
    some { s.setRead k c pc with route := route }
  | .serve k j => do
    let c ← s.reads k
    let r ← s.plan.reads k
    match c.pc with
    | .await a replies =>
      match replies[j]?, (planReqs r.addr r.len a.segs)[j]? with
      | some none, some seg =>
        if s.net.up a.target then
          match (s.net.members a.target).doRead a.hdr seg.H seg.addr seg.len seg.len with
          | .ok (res, q) => some ((s.setMember a.target q).setRead k c
              (.await a (replies.set j (some (.ok res)))))
          | .error e => some (s.setRead k c (.await a (replies.set j (some (.error e)))))
        else none
      | _, _ => none
    | _ => none
  | .fail k j timedOut => do
    let c ← s.reads k
    match c.pc with
    | .await a replies =>
      match replies[j]? with
      | some none => some (s.setRead k c (.await a (replies.set j
          (some (.error (if timedOut then .timedOut else .craft .replicaDown))))))
      | _ => none
    | _ => none

end CraftClient.Client
