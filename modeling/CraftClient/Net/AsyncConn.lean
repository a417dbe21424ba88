import CraftClient.Lib.Runs
import CraftClient.Wire.Message

/-! The sends of `craft_async_conn`, whose operations are coroutines on one thread. -/

namespace CraftClient.Net

open Bytes Runs Wire

variable {κ : Type}

structure AsyncMsg where
  op : Op
  requestId : UInt16
  opHeader : List UInt8
  body : List UInt8
  deriving DecidableEq

def AsyncMsg.bytes (m : AsyncMsg) : List UInt8 := frameMessage m.op 0 m.requestId m.opHeader m.body {}

inductive IoOp
  | write | read | keepalive | resolve
  deriving DecidableEq

def IoOp.op : IoOp → Op
  | .write => .write
  | .read => .read
  | .keepalive => .keepalive
  | .resolve => .resolve

structure AsyncCall where
  helo : List UInt8
  op : IoOp
  opHeader : List UInt8
  body : List UInt8
  deriving DecidableEq

inductive ReplySlot
  | empty
  | replied (granted : Bool)
  | failed
  deriving DecidableEq

inductive TripPc
  | waitSend
  | sending (off : ℕ) (fd : Option ℕ)
  | waitReply
  deriving DecidableEq

structure Trip where
  helo : Bool
  msg : AsyncMsg
  slot : ReplySlot
  pc : TripPc
  deriving DecidableEq

inductive OpPc
  | idle
  | waitConnect (c : AsyncCall)
  | connecting (c : AsyncCall)
  | trip (c : AsyncCall) (t : Trip)
  | returned
  deriving DecidableEq

/-- The members of the connection, `connector` standing for `connecting_`. Sockets are numbered as they are opened;
`wire` are the bytes that each has taken, and `sent` the messages that were sent to the end there. -/
structure AsyncConn (κ : Type) where
  fd : Option ℕ
  ready : Bool
  connector : Option κ
  connectWaiters : List κ
  sending : Bool
  sendWaiters : List κ
  pump : Bool
  nextRid : UInt16
  ops : κ → OpPc
  opened : ℕ
  wire : ℕ → List UInt8
  sent : ℕ → List AsyncMsg

/-- What the callers and the ring do: a connect that completes, a send that has taken `n` bytes or has failed, a reply
that the pump finds, and a fault of its recv, for want of a place on the ring if it is `starved`. -/
inductive AsyncAct (κ : Type)
  | start (k : κ) (c : AsyncCall)
  | connected (k : κ) (ok : Bool)
  | sent (k : κ) (n : ℕ)
  | sendError (k : κ)
  | reply (k : κ) (granted : Bool)
  | recvFault (starved : Bool)

namespace AsyncConn

def new : AsyncConn κ := ⟨none, false, none, [], false, [], false, 1, fun _ => .idle, 0, fun _ => [], fun _ => []⟩

variable [DecidableEq κ] (s : AsyncConn κ)

def setOp (k : κ) (pc : OpPc) : AsyncConn κ := { s with ops := Function.update s.ops k pc }

def takeRid : AsyncConn κ := { s with nextRid := if s.nextRid + 1 = 0 then 1 else s.nextRid + 1 }

def beginTrip (k : κ) (c : AsyncCall) (helo : Bool) : AsyncConn κ :=
  let msg : AsyncMsg := if helo then ⟨.helo, s.nextRid, c.helo, []⟩ else ⟨c.op.op, s.nextRid, c.opHeader, c.body⟩
  if s.sending then
    { s.takeRid.setOp k (.trip c ⟨helo, msg, .empty, .waitSend⟩) with sendWaiters := s.sendWaiters ++ [k] }
  else { s.takeRid.setOp k (.trip c ⟨helo, msg, .empty, .sending 0 s.fd⟩) with sending := true }

def resumeSend (k : κ) : AsyncConn κ :=
  match s.ops k with
  | .trip c t => s.setOp k (.trip c { t with pc := .sending 0 s.fd })
  | _ => s

def releaseSend : AsyncConn κ :=
  match s.sendWaiters with
  | [] => { s with sending := false }
  | k :: rest => { s with sendWaiters := rest }.resumeSend k

def dropFd : AsyncConn κ := { s with fd := none, ready := false }

def resumeConnect (k : κ) : AsyncConn κ :=
  match s.ops k with
  | .waitConnect c => if s.ready then s.beginTrip k c false else s.setOp k .returned
  | _ => s

def finish : AsyncConn κ :=
  s.connectWaiters.foldl resumeConnect { s with connector := none, connectWaiters := [] }

def endTrip (k : κ) (c : AsyncCall) (helo : Bool) (slot : ReplySlot) : AsyncConn κ :=
  let s' := s.setOp k .returned
  if ¬ helo then s'
  else match slot with
    | .replied true => { s' with ready := true }.finish.beginTrip k c false
    | .replied false => s'.dropFd.finish
    | _ => s'.finish

def sendDone (k : κ) (c : AsyncCall) (t : Trip) : AsyncConn κ :=
  let s' := (s.setOp k (.trip c { t with pc := .waitReply })).releaseSend
  if t.slot = .empty then s' else s'.endTrip k c t.helo t.slot

def failOp : OpPc → OpPc
  | .trip c t =>
    if t.slot ≠ .empty then .trip c t
    else if t.pc = .waitReply then .returned
    else .trip c { t with slot := .failed }
  | pc => pc

def awaitsHelo : OpPc → Bool
  | .trip _ t => t.helo && t.slot = .empty && t.pc = .waitReply
  | _ => false

def failAll : AsyncConn κ :=
  let s₁ := { s with ops := fun k => failOp (s.ops k) }
  let s₂ := if s.connector.any fun k => awaitsHelo (s.ops k) then s₁.finish else s₁
  s₂.sendWaiters.foldl resumeSend { s₂ with sending := false, sendWaiters := [] }

end AsyncConn

def asyncStep [DecidableEq κ] (s : AsyncConn κ) : AsyncAct κ → Option (AsyncConn κ)
  | .start k c =>
    if s.ops k = .idle then
      if s.ready then some (s.beginTrip k c false)
      else if s.connector.isSome then
        some { s.setOp k (.waitConnect c) with connectWaiters := s.connectWaiters ++ [k] }
      else
        some { s.setOp k (.connecting c) with
          connector := some k
          pump := false
          fd := some s.opened
          opened := s.opened + 1 }
    else none
  | .connected k ok =>
    match s.ops k with
    | .connecting c =>
      some (if ok then { s with pump := true }.beginTrip k c true else (s.setOp k .returned).dropFd.finish)
    | _ => none
  | .sent k n =>
    match s.ops k with
    | .trip c ⟨helo, msg, slot, .sending off (some fd)⟩ =>
      if 0 < n ∧ off + n ≤ msg.bytes.length then
        let s' := { s with wire := Function.update s.wire fd (s.wire fd ++ slice msg.bytes off n) }
        some (if off + n < msg.bytes.length then s'.setOp k (.trip c ⟨helo, msg, slot, .sending (off + n) s.fd⟩)
          else { s' with sent := Function.update s.sent fd (s.sent fd ++ [msg]) }.sendDone k c
            ⟨helo, msg, slot, .sending (off + n) s.fd⟩)
      else none
    | _ => none
  | .sendError k =>
    match s.ops k with
    | .trip _ ⟨helo, _, _, .sending _ _⟩ =>
      let s' := (s.setOp k .returned).releaseSend
      some (if helo then s'.finish else s')
    | _ => none
  | .reply k granted =>
    match s.ops k with
    | .trip c t =>
      if s.pump = true ∧ t.slot = .empty then
        some (if t.pc = .waitReply then s.endTrip k c t.helo (.replied granted)
          else s.setOp k (.trip c { t with slot := .replied granted }))
      else none
    | _ => none
  | .recvFault starved =>
    if s.pump then some { s with ready := s.ready && starved, pump := false }.failAll else none

namespace OpPc

def sendPos : OpPc → Option (AsyncMsg × ℕ × Option ℕ)
  | .trip _ ⟨_, msg, _, .sending off fd⟩ => some (msg, off, fd)
  | _ => none

def waitsSend : OpPc → Bool
  | .trip _ ⟨_, _, _, .waitSend⟩ => true
  | _ => false

end OpPc

def AsyncConn.Holds (s : AsyncConn κ) (k : κ) : Prop := (s.ops k).sendPos.isSome = true

instance (s : AsyncConn κ) (k : κ) : Decidable (s.Holds k) := inferInstanceAs (Decidable (_ = _))

def AsyncConn.Whole (s : AsyncConn κ) (f : ℕ) : Prop :=
  s.wire f = (s.sent f).flatMap AsyncMsg.bytes ∧ ∀ m ∈ (s.sent f).head?, m.op = .helo

def AsyncConn.WellFramed (s : AsyncConn κ) (f : ℕ) : Prop :=
  s.Whole f ∨ ∃ k msg off, (s.ops k).sendPos = some (msg, off, some f) ∧ off < msg.bytes.length ∧
    s.wire f = (s.sent f).flatMap AsyncMsg.bytes ++ msg.bytes.take off ∧ ∀ m ∈ (s.sent f ++ [msg]).head?, m.op = .helo

/-- A recv fails while nobody holds the slot of the sender or waits for it, and a send with nothing of its message
taken. -/
def FaultsBetween (s : AsyncConn κ) : AsyncAct κ → Prop
  | .recvFault _ => s.sending = false ∧ s.sendWaiters = []
  | .sendError k => ∀ p ∈ (s.ops k).sendPos, p.2.1 = 0
  | _ => True

instance [DecidableEq κ] : ∀ (s : AsyncConn κ) (a : AsyncAct κ), Decidable (FaultsBetween s a)
  | _, .recvFault _ => inferInstanceAs (Decidable (_ ∧ _))
  | _, .sendError _ => inferInstanceAs (Decidable (∀ _ ∈ _, _))
  | _, .start .. | _, .connected .. | _, .sent .. | _, .reply .. => .isTrue trivial

end CraftClient.Net
