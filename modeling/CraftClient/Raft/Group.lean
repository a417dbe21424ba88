import CraftClient.Raft.Barrier
import CraftClient.Raft.Resolution

/-! The raft group of a volume. Raft itself is what it promises: an accepted entry is committed or lost, and every
member applies the committed ones in the order of their proposals. -/

namespace CraftClient.Raft

open Replica

variable {ρ : Type} {n : ℕ}

inductive EstablishResult (n : ℕ)
  | redirect (leaderHint : Option (Fin n))
  | established (members : List (Fin n)) (dlsn : ℤ)

/-- The arguments of `apply_login` and what it has collected; `answered` are the members behind `resp`, which
also holds the caller's own pair. -/
structure EstablishCall (n : ℕ) where
  clientToken : UInt64
  term : UInt64
  currentTerm : UInt64 := 0
  members : List (Fin n) := []
  resp : List LsnPair := []
  answered : List (Fin n) := []
  rsCommitLsn : ℤ := -1

/-- Where `apply_login` stands. `asked` waits for the answer of a peer; the responses of `resolve_and_apply` are kept
with the peers that they came from. -/
inductive EstablishPc (ρ : Type) (n : ℕ)
  | start
  | sample
  | probe (rest : List (Fin n))
  | asked (k : ρ) (peer : Fin n) (rest : List (Fin n))
  | check
  | missing
  | fetch (lsns : List ℤ) (rest : List (Fin n)) (responses : List (Fin n × List JournalSlot))
  | decide (lsns : List ℤ) (responses : List (Fin n × List JournalSlot)) (dec : Decided)
  | proposeSync (emptySlots : List ℤ)
  | clearDone
  | proposeLogin
  | wait

inductive Establish (ρ : Type) (n : ℕ)
  | idle
  | running (c : EstablishCall n) (pc : EstablishPc ρ n)
  | done (c : EstablishCall n) (res : Except ErrorCond (EstablishResult n))

def Establish.isRunning : Establish ρ n → Bool
  | .running _ _ => true
  | _ => false

/-- `volume` is what `get_volume` gives on this server, `applied` how many entries its commit worker has taken. -/
structure Server (ρ : Type) (n : ℕ) where
  barrier : Barrier ρ
  volume : List (Fin n)
  nextTerm : UInt64
  sessionTerm : UInt64
  sessionActive : Bool
  isLeader : Bool
  login : Establish ρ n
  applied : ℕ
  worker : Option (SyncRSCommitLSNMsg × SyncPc n)

namespace Server

variable (v : Server ρ n)

def start (mem : MemReplica) (volume : List (Fin n)) (nextTerm : UInt64) : Server ρ n :=
  ⟨.start mem, volume, nextTerm, 0, false, false, .idle, 0, none⟩

def mem : MemReplica := v.barrier.replica.mem

def term : UInt64 := v.barrier.term

def committed : UInt64 := v.barrier.committed

def setReplica (r : RaftReplica) : Server ρ n := { v with barrier := { v.barrier with replica := r } }

def setMem (mem : MemReplica) : Server ρ n := v.setReplica { v.barrier.replica with mem := mem }

def beginLogin (clientToken : UInt64) : Server ρ n :=
  let term := v.nextTerm + 1
  { v with
    nextTerm := term
    sessionTerm := term
    login := .running { clientToken := clientToken, term := term } .start }

end Server

def answersOk : Except ErrorCond (EstablishResult n) → Bool
  | .ok (.established _ _) | .ok (.redirect none) => true
  | .ok (.redirect (some _)) | .error _ => false

/-- `requests` are the probes on their way. Accepted entries wait in `pending` until they are committed or lost.
The rest is history: the writes that each member has acknowledged, with their terms, and the terms of the LOGINs
answered ok, the last first. -/
structure Group (ρ : Type) (n : ℕ) where
  servers : Fin n → Server ρ n
  requests : ρ → Option (Fin n × UInt64)
  pending : List RaftMsg
  log : List RaftMsg
  acks : Fin n → List (UInt64 × ℤ)
  returned : List UInt64

def maxLastAppend : List LsnPair → ℤ
  | [] => -1
  | p :: ps => ps.foldl (fun a q => max a q.lastAppendLsn) p.lastAppendLsn

inductive GroupAct (ρ : Type) (n : ℕ)
  | lead (m : Fin n) (b : Bool)
  | onLogin (m : Fin n) (clientToken : UInt64)
  | go (m : Fin n) (leaderHint : Option (Fin n))
  | ask (m : Fin n) (k : ρ)
  | answer (m : Fin n)
  | noAnswer (m : Fin n)
  | fetch (m : Fin n) (reached : Bool)
  | propose (m : Fin n) (refusal : Option ErrorCond)
  | timeout (m : Fin n)
  | serve (k : ρ)
  | barrier (m : Fin n) (a : BarrierAct ρ)
  | commit
  | lose
  | apply (m : Fin n)
  | work (m : Fin n) (reached : Bool)
  | write (m : Fin n) (hdr : ClientHdr) (d : ℤ) (addr len : UInt64) (bytes : Option (List UInt8))

def BarrierAct.isLocal : BarrierAct ρ → Bool
  | .probe _ _ _ | .internalLogin _ => false
  | _ => true

namespace Group

variable (g : Group ρ n)

def setServer (m : Fin n) (v : Server ρ n) : Group ρ n := { g with servers := Function.update g.servers m v }

def setLogin (m : Fin n) (l : Establish ρ n) : Group ρ n := g.setServer m { g.servers m with login := l }

def finish (m : Fin n) (c : EstablishCall n) (res : Except ErrorCond (EstablishResult n)) : Group ρ n :=
  let v := g.servers m
  { g.setServer m { v with login := .done c res, sessionActive := answersOk res } with
    returned := if answersOk res then v.sessionTerm :: g.returned else g.returned }

def establishStep (m : Fin n) (leaderHint : Option (Fin n)) (c : EstablishCall n) :
    EstablishPc ρ n → Option (Group ρ n)
  | .start =>
    some (if (g.servers m).isLeader then g.setLogin m (.running c .sample)
      else g.finish m c (.ok (.redirect leaderHint)))
  | .sample =>
    let v := g.servers m
    let c' := { c with currentTerm := v.term, resp := [v.mem.peekLsns], members := v.volume }
    some (g.setLogin m (.running c' (.probe v.volume)))
  | .probe [] => some (g.setLogin m (.running c .check))
  | .probe (q :: rest) => if q = m then some (g.setLogin m (.running c (.probe rest))) else none
  | .check =>
    some (if c.resp.length ≤ c.members.length / 2 then g.finish m c (.error (.craft .noQuorum))
      else g.setLogin m (.running { c with rsCommitLsn := maxLastAppend c.resp } .missing))
  | .missing =>
    let v := g.servers m
    let lsns := getMissingSlots v.mem c.rsCommitLsn
    some (g.setLogin m (.running c (if lsns = [] then .proposeSync [] else .fetch lsns v.volume [])))
  | .fetch lsns [] responses => some (g.setLogin m (.running c (.decide lsns responses ⟨[], -1⟩)))
  | .fetch lsns (q :: rest) responses =>
    if q = m then some (g.setLogin m (.running c (.fetch lsns rest responses))) else none
  | .decide [] _ dec =>
    some (if dec.stalledLsn ≠ -1 then g.finish m c (.error (.craft .internal))
      else g.setLogin m (.running c (.proposeSync dec.emptySlots)))
  | .decide (lsn :: lsns) responses dec =>
    let v := g.servers m
    let (mem, dec') := decideSlot v.volume.length (responses.map Prod.snd) c.currentTerm v.mem dec lsn
    some (g.setServer m { v.setMem mem with login := .running c (.decide lsns responses dec') })
  | .clearDone =>
    let v := g.servers m
    some (g.setServer m { v.setReplica { v.barrier.replica with loginDone := false } with
      login := .running c .proposeLogin })
  | .wait =>
    if (g.servers m).barrier.replica.loginDone then
      some (g.finish m c (.ok (.established c.members c.rsCommitLsn)))
    else none
  | .asked _ _ _ | .proposeSync _ | .proposeLogin => none

variable [DecidableEq ρ]

def onBarrier (m : Fin n) (a : BarrierAct ρ) : Option (Group ρ n) :=
  (barrierStep (g.servers m).barrier a).map fun b => g.setServer m { g.servers m with barrier := b }

def applyEntry (m : Fin n) (e : RaftMsg) : Option (Group ρ n) :=
  let v := { g.servers m with applied := (g.servers m).applied + 1 }
  let g' := g.setServer m v
  match decodeEntry e.toJson with
  | .ok (.login msg) => g'.onBarrier m (.internalLogin msg)
  | .ok (.sync msg) => some (g'.setServer m { v with worker := some (msg, .mark msg.emptySlots) })
  | .error _ => some g'

end Group

variable [DecidableEq ρ]

def groupStep (g : Group ρ n) : GroupAct ρ n → Option (Group ρ n)
  | .lead m b => some (g.setServer m { g.servers m with isLeader := b })
  | .onLogin m clientToken =>
    let v := g.servers m
    if v.login.isRunning then none
    else some (g.setServer m (v.beginLogin clientToken))
  | .go m leaderHint =>
    match (g.servers m).login with
    | .running c pc => g.establishStep m leaderHint c pc
    | _ => none
  | .ask m k =>
    match (g.servers m).login with
    | .running c (.probe (q :: rest)) =>
      match g.requests k, (g.servers q).barrier.probes k with
      | none, .idle =>
        if q = m then none
        else some { g.setLogin m (.running c (.asked k q rest)) with
          requests := Function.update g.requests k (some (q, c.term)) }
      | _, _ => none
    | _ => none
  | .answer m =>
    match (g.servers m).login with
    | .running c (.asked k q rest) =>
      match (g.servers q).barrier.probes k with
      | .done ret => some (g.setLogin m (.running
          { c with resp := c.resp ++ [ret], answered := c.answered ++ [q] } (.probe rest)))
      | _ => none
    | _ => none
  | .noAnswer m =>
    match (g.servers m).login with
    | .running c (.asked _ _ rest) => some (g.setLogin m (.running c (.probe rest)))
    | _ => none
  | .fetch m reached =>
    match (g.servers m).login with
    | .running c (.fetch lsns (q :: rest) responses) =>
      if q = m then none
      else
        let responses' := if reached then responses ++ [(q, doFetch (g.servers q).mem lsns)] else responses
        some (g.setLogin m (.running c (.fetch lsns rest responses')))
    | _ => none
  | .propose m refusal =>
    match (g.servers m).login, refusal with
    | .running c (.proposeSync emptySlots), none =>
      some { g.setLogin m (.running c .clearDone) with
        pending := g.pending ++ [.sync ⟨c.rsCommitLsn, c.clientToken, emptySlots⟩] }
    | .running c .proposeLogin, none =>
      some { g.setLogin m (.running c .wait) with
        pending := g.pending ++ [.login ⟨c.clientToken, c.term, c.rsCommitLsn⟩] }
    | .running c (.proposeSync _), some e | .running c .proposeLogin, some e => some (g.finish m c (.error e))
    | _, _ => none
  | .timeout m =>
    match (g.servers m).login with
    | .running c .wait => some (g.finish m c (.error (.craft .internal)))
    | _ => none
  | .serve k =>
    match g.requests k with
    | some (q, term) => { g with requests := Function.update g.requests k none }.onBarrier q (.probe k term true)
    | none => none
  | .barrier m a => if a.isLocal then g.onBarrier m a else none
  | .commit =>
    match g.pending with
    | e :: rest => some { g with pending := rest, log := g.log ++ [e] }
    | [] => none
  | .lose =>
    match g.pending with
    | _ :: rest => some { g with pending := rest }
    | [] => none
  | .apply m =>
    match (g.servers m).worker, g.log[(g.servers m).applied]? with
    | none, some e => g.applyEntry m e
    | _, _ => none
  | .work m reached =>
    let v := g.servers m
    match v.worker with
    | some (msg, pc) =>
      let answer := match pc with
        | .fetch _ lsns (q :: _) => if reached then some (doFetch (g.servers q).mem lsns) else none
        | _ => none
      let (r, pc') := syncStep msg m v.volume answer v.barrier.replica pc
      some (g.setServer m { v.setReplica r with worker := pc'.map fun pc' => (msg, pc') })
    | none => none
  | .write m hdr d addr len bytes =>
    match (g.servers m).mem.doWrite hdr d addr len bytes with
    | .ok (_, mem) => some { g.setServer m ((g.servers m).setMem mem) with
        acks := Function.update g.acks m ((hdr.term, d) :: g.acks m) }
    | .error _ => some g

end CraftClient.Raft
