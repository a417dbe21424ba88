import CraftClient.Net.Server
import CraftClient.Replica.Fencing

namespace CraftClient.Net

open Replica Runs Wire

def Request.isIo : Request → Bool
  | .write .. | .read .. | .keepalive .. | .resolve .. => true
  | _ => false

section Io

variable {v : CraftTcpServer}

structure CraftTcpServer.Stamps (v : CraftTcpServer) (out : Reply × CraftTcpServer) : Prop where
  sessionTerm : out.2.sessionTerm = v.sessionTerm
  sessionActive : out.2.sessionActive = v.sessionActive
  term : out.2.replica.term = v.replica.term
  unfenced : v.sessionActive = true → v.sessionTerm = v.replica.term → out.1.status ≠ Wire.staleTerm

namespace CraftTcpServer

lemma stamps_refused (h : ¬ v.sessionActive = true) (rsp : Reply) : v.Stamps (rsp, v) :=
  ⟨rfl, rfl, rfl, fun ha => absurd ha h⟩

lemma ok_ne_staleTerm : Wire.ok ≠ Wire.staleTerm := by decide

section Outcome

variable {α : Type*} {hdr : ClientHdr} {rep : α → MemReplica} {out : Except ErrorCond α} {rsp : Reply}

lemma stamps_ok {x : α} (hf : Fenced v.replica hdr rep out) (ho : out = .ok x) (hr : rsp.status = Wire.ok) :
    v.Stamps (rsp, { v with replica := rep x }) := by
  refine ⟨rfl, rfl, (hf.ok ho).2, fun _ _ => ?_⟩
  rw [hr]
  exact ok_ne_staleTerm

lemma stamps_error {e : ErrorCond} (hf : Fenced v.replica hdr rep out) (he : out = .error e)
    (ht : hdr.term = v.sessionTerm) (hr : rsp.status = toWireStatus e) : v.Stamps (rsp, v) := by
  refine ⟨rfl, rfl, rfl, fun _ hv hs => ?_⟩
  rw [toWireStatus_eq_staleTerm (hr.symm.trans hs)] at he
  exact hf.stale he (ht.trans hv)

end Outcome

lemma stamps_onWrite (v : CraftTcpServer) (req : WriteReq) (body : List UInt8) : v.Stamps (v.onWrite req body) := by
  have hf := MemReplica.fenced_doWrite v.replica (v.hdr req.hdr.commitLsn req.hdr.allCommittedLsn) req.dlsn req.addr
    req.len (payload body)
  simp only [onWrite, TcpServer.onWrite]
  split
  case isTrue h => exact stamps_refused h _
  case isFalse h =>
    split
    case h_1 l r hw => exact stamps_ok hf hw rfl
    case h_2 e hw => exact stamps_error hf hw rfl rfl

lemma stamps_onKeepAlive (v : CraftTcpServer) (req : ReqHdr) : v.Stamps (v.onKeepAlive req) := by
  have hf := MemReplica.fenced_doKeepAlive v.replica (v.hdr req.commitLsn req.allCommittedLsn)
  simp only [onKeepAlive, TcpServer.onKeepAlive]
  split
  case isTrue h => exact stamps_refused h _
  case isFalse h =>
    split
    case h_1 l r hw => exact stamps_ok hf hw rfl
    case h_2 e hw => exact stamps_error hf hw rfl rfl

lemma stamps_onResolve (v : CraftTcpServer) (req : ResolveReq) : v.Stamps (v.onResolve req) := by
  have hf := MemReplica.fenced_doResolveLocal v.replica (v.hdr req.hdr.commitLsn req.hdr.allCommittedLsn) req.upto
  simp only [onResolve, TcpServer.onResolve]
  split
  case isTrue h => exact stamps_refused h _
  case isFalse h =>
    split
    case h_1 l r hw => exact stamps_ok hf hw rfl
    case h_2 e hw => exact stamps_error hf hw rfl rfl

lemma stamps_onRead (v : CraftTcpServer) (req : ReadReq) : v.Stamps (v.onRead req) := by
  have hf := MemReplica.fenced_doReadInto v.replica (v.hdr req.hdr.commitLsn req.hdr.allCommittedLsn) req.readLsn
    req.addr req.len ⟨req.len, [List.replicate req.len.toNat 0]⟩
  simp only [onRead, readReply]
  split
  case isTrue h => exact stamps_refused h _
  case isFalse h =>
    split
    case h_1 e hr => exact stamps_error hf hr rfl rfl
    case h_2 res dest' r hr => exact stamps_ok (x := (res, dest', r)) hf hr rfl

lemma stamps_handle (v : CraftTcpServer) (b : Backend) {req : Request} (h : req.isIo = true) :
    v.Stamps (v.handle b req) := by
  cases req with
  | write req body => exact stamps_onWrite v req body
  | read req => exact stamps_onRead v req
  | keepalive req => exact stamps_onKeepAlive v req
  | resolve req => exact stamps_onResolve v req
  | _ => cases h

lemma refused_handle {b : Backend} {req : Request} (hv : v.sessionActive = false) (h : req.isIo = true) :
    (v.handle b req).1.status = Wire.staleTerm ∧ (v.handle b req).2 = v := by
  cases req with
  | write req body => simp [handle, onWrite, TcpServer.onWrite, hv, lsnReply]
  | read req => simp [handle, onRead, hv, readRefused]
  | keepalive req => simp [handle, onKeepAlive, TcpServer.onKeepAlive, hv, lsnReply]
  | resolve req => simp [handle, onResolve, TcpServer.onResolve, hv, resolveReply]
  | _ => cases h

end CraftTcpServer

end Io

section Cold

variable {createVolume : List UInt8 → List Member → Except ErrorCond Unit} {geo : ServerGeometry}
  {v v' : CraftTcpServer} {req : Request}

def coldHandle (createVolume : List UInt8 → List Member → Except ErrorCond Unit) (v : CraftTcpServer) (req : Request) :
    Reply × CraftTcpServer :=
  v.handle (coldBackend v.geo.member createVolume) req

def coldStep (createVolume : List UInt8 → List Member → Except ErrorCond Unit) (v : CraftTcpServer) (req : Request) :
    Option CraftTcpServer :=
  some (coldHandle createVolume v req).2

def PresentsSession (v : CraftTcpServer) : Request → Prop
  | .helo req => req.term = v.sessionTerm
  | _ => True

instance : ∀ (v : CraftTcpServer) (req : Request), Decidable (PresentsSession v req)
  | _, .helo _ => inferInstanceAs (Decidable (_ = _))
  | _, .login _ | _, .write .. | _, .read _ | _, .keepalive _ | _, .resolve _ | _, .logout | _, .createVolume .. =>
    .isTrue trivial

def CraftTcpServer.InStep (v : CraftTcpServer) : Prop := v.sessionActive = true → v.sessionTerm = v.replica.term

structure CraftTcpServer.Usable (v : CraftTcpServer) (t : UInt64) : Prop where
  replica : v.replica.term = t
  stamped : v.sessionTerm = t
  write : ∀ req body, (v.onWrite req body).1.status ≠ Wire.staleTerm
  read : ∀ req, (v.onRead req).1.status ≠ Wire.staleTerm
  keepAlive : ∀ req, (v.onKeepAlive req).1.status ≠ Wire.staleTerm

lemma coldHandle_helo (v : CraftTcpServer) (req : HeloReq) : coldHandle createVolume v (.helo req) =
    (statusReply .heloRsp Wire.ok, { v with
      replica := v.replica.coldApplyLogin req.clientToken v.sessionTerm
      sessionTerm := req.term
      sessionActive := true }) := rfl

lemma CraftTcpServer.usable_of_inStep (h : v.InStep) (ha : v.sessionActive = true) : v.Usable v.sessionTerm :=
  ⟨(h ha).symm, rfl, fun req body => (stamps_onWrite v req body).unfenced ha (h ha),
    fun req => (stamps_onRead v req).unfenced ha (h ha), fun req => (stamps_onKeepAlive v req).unfenced ha (h ha)⟩

lemma CraftTcpServer.Stamps.inStep {out : Reply × CraftTcpServer} (hk : v.Stamps out) (h : v.InStep) :
    out.2.InStep := by
  intro ha
  rw [hk.sessionTerm, hk.term]
  exact h (hk.sessionActive ▸ ha)

lemma usable_helo_iff (v : CraftTcpServer) (req : HeloReq) :
    (coldHandle createVolume v (.helo req)).2.Usable req.term ↔ req.term = v.sessionTerm := by
  rw [coldHandle_helo]
  constructor
  · intro h
    exact h.replica.symm
  · intro h
    exact CraftTcpServer.usable_of_inStep (fun _ => h) rfl

lemma inStep_coldStep (h : v.InStep) (hok : PresentsSession v req) (hs : coldStep createVolume v req = some v') :
    v'.InStep := by
  cases hs
  cases req with
  | login req => exact fun _ => rfl
  | helo req => exact fun _ => hok
  | logout =>
    simp only [coldHandle, CraftTcpServer.handle, CraftTcpServer.onLogout]
    split
    · exact nofun
    · exact h
  | createVolume req body => exact h
  | write req body => exact (CraftTcpServer.stamps_onWrite v req body).inStep h
  | read req => exact (CraftTcpServer.stamps_onRead v req).inStep h
  | keepalive req => exact (CraftTcpServer.stamps_onKeepAlive v req).inStep h
  | resolve req => exact (CraftTcpServer.stamps_onResolve v req).inStep h

theorem granted_helo_usable (h : Reach (coldStep createVolume) PresentsSession (.new geo) v) :
    v.InStep ∧ ∀ req : HeloReq, (coldHandle createVolume v (.helo req)).1.status = Wire.ok ∧
      ((coldHandle createVolume v (.helo req)).2.InStep ↔ req.term = v.sessionTerm) ∧
      ((coldHandle createVolume v (.helo req)).2.Usable req.term ↔ req.term = v.sessionTerm) := by
  have hi : v.InStep := h.invariant nofun fun _ _ _ hi hok hs => inStep_coldStep hi hok hs
  refine ⟨hi, fun req => ⟨rfl, ?_, usable_helo_iff v req⟩⟩
  exact ⟨fun hs => hs rfl, fun ht _ => ht⟩

def smallGeometry : ServerGeometry := ⟨2 ^ 20, 512, 2 ^ 16, ⟨nilId, []⟩⟩

theorem granted_helo_usable_twice :
    ∃ v, Reach (coldStep fun _ _ => .ok ()) PresentsSession (.new smallGeometry) v ∧
      (v.replica.lastAppendLsn = 0 ∧ v.replica.clientToken = 9 ∧ v.sessionActive = true) ∧
      v.InStep ∧ ∀ req : HeloReq, (coldHandle (fun _ _ => .ok ()) v (.helo req)).1.status = Wire.ok ∧
        ((coldHandle (fun _ _ => .ok ()) v (.helo req)).2.InStep ↔ req.term = v.sessionTerm) ∧
        ((coldHandle (fun _ _ => .ok ()) v (.helo req)).2.Usable req.term ↔ req.term = v.sessionTerm) := by
  obtain ⟨v, hr, hp⟩ := Reach.exists_of_exec (coldStep fun _ _ => .ok ()) PresentsSession (.new smallGeometry)
    [.login ⟨nilId, 7⟩, .helo ⟨nilId, 7, 1⟩, .write ⟨⟨-1, -1⟩, 0, 0, 512⟩ [], .logout, .helo ⟨nilId, 9, 1⟩]
    (fun v => v.replica.lastAppendLsn = 0 ∧ v.replica.clientToken = 9 ∧ v.sessionActive = true) (by decide +kernel)
  exact ⟨v, hr, of_decide_eq_true hp, granted_helo_usable hr⟩

theorem granted_helo_fenced :
    let helo := coldHandle (fun _ _ => .ok ()) (.new smallGeometry) (.helo ⟨nilId, 7, 5⟩)
    let write := coldHandle (fun _ _ => .ok ()) helo.2 (.write ⟨⟨-1, -1⟩, 0, 0, 512⟩ [])
    helo.1.status = Wire.ok ∧ helo.2.sessionActive = true ∧ helo.2.sessionTerm = 5 ∧ helo.2.replica.term = 0 ∧
      write.1.status = Wire.staleTerm := by
  decide +kernel

end Cold

section Shared

variable {κ : Type} [DecidableEq κ]

def CraftTcpServer.loginBegin (v : CraftTcpServer) : CraftTcpServer :=
  { v with nextTerm := v.nextTerm + 1, sessionTerm := v.nextTerm + 1 }

def CraftTcpServer.loginEnd (v : CraftTcpServer) (out : Except ErrorCond LoginResult × MemReplica) :
    Reply × CraftTcpServer :=
  let v' := { v with replica := out.2 }
  let rsp := v'.loginReply out.1
  (rsp, { v' with sessionActive := rsp.status = Wire.ok })

lemma CraftTcpServer.onLogin_eq (v : CraftTcpServer) (b : Backend) (req : LoginReq) :
    v.onLogin b req = v.loginBegin.loginEnd (b.establish req v.loginBegin.sessionTerm v.replica) := rfl

structure Executed (κ : Type) where
  conn : κ
  presented : Option UInt64
  stamped : UInt64
  status : UInt8
  deriving DecidableEq

/-- `establishing` holds the LOGINs that wait in `srv_establish`; `alone` is whether no other connection has begun a
LOGIN, or bound at another term, since this one was bound. -/
structure SharedServer (κ : Type) where
  server : CraftTcpServer
  establishing : κ → Option (LoginReq × UInt64)
  presented : κ → Option UInt64
  alone : κ → Bool
  executed : List (Executed κ)

inductive SharedAct (κ : Type)
  | loginBegin (k : κ) (req : LoginReq)
  | loginEnd (k : κ) (out : Except ErrorCond LoginResult × MemReplica)
  | helo (k : κ) (req : HeloReq)
  | io (k : κ) (req : Request)
  | logout (k : κ)
  | raft (r : MemReplica)

namespace SharedServer

def start (v : CraftTcpServer) : SharedServer κ := ⟨v, fun _ => none, fun _ => none, fun _ => false, []⟩

variable (s : SharedServer κ)

def bind (k : κ) (t : UInt64) : SharedServer κ :=
  { s with
    presented := Function.update s.presented k (some t)
    alone := Function.update (fun j => s.alone j && s.presented j = some t) k true }

def execute (k : κ) (out : Reply × CraftTcpServer) : SharedServer κ :=
  { s with
    server := out.2
    executed := if s.server.sessionActive then ⟨k, s.presented k, s.server.sessionTerm, out.1.status⟩ :: s.executed
      else s.executed }

end SharedServer

def sharedStep (b : Backend) (s : SharedServer κ) : SharedAct κ → Option (SharedServer κ)
  | .loginBegin k req =>
    if s.establishing k = none then
      let v := s.server.loginBegin
      some { s with
        server := v
        establishing := Function.update s.establishing k (some (req, v.sessionTerm))
        alone := fun _ => false }
    else none
  | .loginEnd k out => do
    let (req, term) ← s.establishing k
    let out := if b.raftEnabled then out else b.establish req term s.server.replica
    let (rsp, v) := s.server.loginEnd out
    let s' := { s with server := v, establishing := Function.update s.establishing k none }
    some (if rsp.status = Wire.ok then s'.bind k v.sessionTerm else s')
  | .helo k req =>
    if s.establishing k = none then
      let (rsp, v) := s.server.onHelo b req
      let s' := { s with server := v }
      some (if rsp.status = Wire.ok then s'.bind k req.term else s')
    else none
  | .io k req =>
    if s.establishing k = none ∧ req.isIo = true then some (s.execute k (s.server.handle b req)) else none
  | .logout k => if s.establishing k = none then some (s.execute k s.server.onLogout) else none
  | .raft r => if b.raftEnabled then some { s with server := { s.server with replica := r } } else none

def SharedServer.answer (b : Backend) (s : SharedServer κ) : SharedAct κ → Option (κ × Reply)
  | .io k req => some (k, (s.server.handle b req).1)
  | .logout k => some (k, s.server.onLogout.1)
  | _ => none

/-- While a session is active, IO and LOGOUT come on connections that nobody has taken over from. -/
def Alone (s : SharedServer κ) : SharedAct κ → Prop
  | .io k _ | .logout k => s.alone k = true ∨ s.server.sessionActive = false
  | _ => True

instance : ∀ (s : SharedServer κ) (a : SharedAct κ), Decidable (Alone s a)
  | _, .io .. | _, .logout _ => inferInstanceAs (Decidable (_ ∨ _))
  | _, .loginBegin .. | _, .loginEnd .. | _, .helo .. | _, .raft _ => .isTrue trivial

structure SharedInv (s : SharedServer κ) : Prop where
  alone : ∀ k, s.alone k = true → s.presented k = some s.server.sessionTerm
  executed : ∀ e ∈ s.executed, e.presented = some e.stamped

variable {b : Backend} {s s' : SharedServer κ} {a : SharedAct κ} {k : κ} {v : CraftTcpServer}

lemma sharedInv_bind (he : ∀ e ∈ s.executed, e.presented = some e.stamped) :
    SharedInv (s.bind k s.server.sessionTerm) := by
  refine ⟨fun j hj => ?_, he⟩
  simp only [SharedServer.bind] at hj ⊢
  by_cases hjk : j = k
  · rw [hjk, Function.update_self]
  · rw [Function.update_of_ne hjk, Bool.and_eq_true] at hj
    rw [Function.update_of_ne hjk]
    exact of_decide_eq_true hj.2

omit [DecidableEq κ] in
lemma SharedInv.execute (h : SharedInv s) {out : Reply × CraftTcpServer}
    (ha : s.alone k = true ∨ s.server.sessionActive = false) (ho : out.2.sessionTerm = s.server.sessionTerm) :
    SharedInv (s.execute k out) := by
  constructor
  · intro j hj
    rw [SharedServer.execute, ho]
    exact h.alone j hj
  · intro e he
    simp only [SharedServer.execute] at he
    split_ifs at he with hactive
    · rcases List.mem_cons.mp he with rfl | he
      · rw [hactive] at ha
        exact h.alone k (ha.resolve_right Bool.noConfusion)
      · exact h.executed e he
    · exact h.executed e he

lemma sessionTerm_onLogout (v : CraftTcpServer) : v.onLogout.2.sessionTerm = v.sessionTerm := by
  rw [CraftTcpServer.onLogout]
  split_ifs <;> rfl

lemma sessionTerm_onHelo (v : CraftTcpServer) (b : Backend) (req : HeloReq) :
    (v.onHelo b req).2.sessionTerm = if (v.onHelo b req).1.status = Wire.ok then req.term else v.sessionTerm := by
  simp only [CraftTcpServer.onHelo, statusReply]
  split_ifs <;> rfl

lemma sharedInv_step (h : SharedInv s) (hok : Alone s a) (hs : sharedStep b s a = some s') : SharedInv s' := by
  cases a with
  | loginBegin k req =>
    simp only [sharedStep] at hs
    split_ifs at hs
    cases hs
    exact ⟨nofun, h.executed⟩
  | loginEnd k out =>
    obtain ⟨⟨req, term⟩, hq, hs⟩ := Option.bind_eq_some_iff.mp hs
    cases hs
    generalize (if b.raftEnabled = true then out else b.establish req term s.server.replica) = out'
    split_ifs
    · exact sharedInv_bind h.executed
    · exact ⟨h.alone, h.executed⟩
  | helo k req =>
    have ht := sessionTerm_onHelo s.server b req
    simp only [sharedStep] at hs
    split_ifs at hs with hp hrsp
    · cases hs
      rw [if_pos hrsp] at ht
      rw [← ht]
      exact sharedInv_bind h.executed
    · cases hs
      rw [if_neg hrsp] at ht
      exact ⟨fun j hj => (h.alone j hj).trans (congrArg some ht.symm), h.executed⟩
  | io k req =>
    simp only [sharedStep] at hs
    split_ifs at hs with hp
    cases hs
    exact h.execute hok (CraftTcpServer.stamps_handle s.server b hp.2).sessionTerm
  | logout k =>
    simp only [sharedStep] at hs
    split_ifs at hs
    cases hs
    exact h.execute hok (sessionTerm_onLogout s.server)
  | raft r =>
    simp only [sharedStep] at hs
    split_ifs at hs
    cases hs
    exact ⟨h.alone, h.executed⟩

omit [DecidableEq κ] in
lemma execute_refused {out : Reply × CraftTcpServer} (hv : s.server.sessionActive = false) (ho : out.2 = s.server) :
    s.execute k out = s := by
  rw [SharedServer.execute, ho, hv]
  rfl

lemma refused_sharedStep {rsp : Reply} (hv : s.server.sessionActive = false) (hs : sharedStep b s a = some s')
    (ha : s.answer b a = some (k, rsp)) : rsp.status = Wire.staleTerm ∧ s' = s := by
  cases a with
  | io j req =>
    cases ha
    simp only [sharedStep] at hs
    split_ifs at hs with hp
    cases hs
    obtain ⟨hst, hserver⟩ := CraftTcpServer.refused_handle (b := b) hv hp.2
    exact ⟨hst, execute_refused hv hserver⟩
  | logout j =>
    cases ha
    simp only [sharedStep] at hs
    split_ifs at hs with hp
    cases hs
    have ho : s.server.onLogout = (statusReply .logoutRsp Wire.staleTerm, s.server) := by
      rw [CraftTcpServer.onLogout, hv]
      rfl
    rw [ho]
    exact ⟨rfl, execute_refused hv rfl⟩
  | _ => cases ha

theorem stamped_with_presented (h : Reach (sharedStep b) Alone (SharedServer.start v) s) :
    (∀ e ∈ s.executed, e.presented = some e.stamped) ∧
    ∀ a s' k rsp, Alone s a → sharedStep b s a = some s' → s.answer b a = some (k, rsp) → s.alone k = false →
      rsp.status = Wire.staleTerm ∧ s' = s := by
  have hi : SharedInv s := h.invariant ⟨nofun, nofun⟩ fun _ _ _ hi hok hs => sharedInv_step hi hok hs
  refine ⟨hi.executed, fun a s' k rsp hok hs ha hk => refused_sharedStep ?_ hs ha⟩
  cases a with
  | io j req | logout j =>
    cases ha
    exact hok.resolve_left (by simp [hk])
  | _ => cases ha

theorem stamped_with_presented_taken_over :
    ∃ s : SharedServer (Fin 3),
      Reach (sharedStep (coldBackend smallGeometry.member fun _ _ => .ok ())) Alone (.start (.new smallGeometry)) s ∧
      (s.executed.map (fun e => (e.conn, e.stamped, e.status)) =
        [(2, 2, Wire.ok), (2, 2, Wire.ok), (0, 1, Wire.ok), (1, 1, Wire.ok), (0, 1, Wire.ok)] ∧
        s.presented 0 = some 1 ∧ s.server.sessionTerm = 2 ∧ s.alone 0 = false ∧
        Alone s (.io 0 (.write ⟨⟨0, -1⟩, 2, 0, 512⟩ [])) ∧ s.establishing 0 = none) ∧
      (∀ e ∈ s.executed, e.presented = some e.stamped) ∧
      (s.server.onWrite ⟨⟨0, -1⟩, 2, 0, 512⟩ []).1.status = Wire.staleTerm := by
  obtain ⟨s, hr, hp⟩ := Reach.exists_of_exec
    (sharedStep (coldBackend smallGeometry.member fun _ _ => .ok ())) Alone
    (.start (.new smallGeometry) : SharedServer (Fin 3))
    [.loginBegin 0 ⟨nilId, 7⟩, .loginEnd 0 (.error .timedOut, .new 512), .helo 1 ⟨nilId, 7, 1⟩,
      .io 0 (.write ⟨⟨-1, -1⟩, 0, 0, 512⟩ []), .io 1 (.keepalive ⟨0, -1⟩), .logout 0,
      .loginBegin 2 ⟨nilId, 9⟩, .loginEnd 2 (.error .timedOut, .new 512), .io 2 (.write ⟨⟨0, -1⟩, 1, 0, 512⟩ []),
      .logout 2]
    (fun s => s.executed.map (fun e => (e.conn, e.stamped, e.status)) =
        [(2, 2, Wire.ok), (2, 2, Wire.ok), (0, 1, Wire.ok), (1, 1, Wire.ok), (0, 1, Wire.ok)] ∧
      s.presented 0 = some 1 ∧ s.server.sessionTerm = 2 ∧ s.alone 0 = false ∧
      Alone s (.io 0 (.write ⟨⟨0, -1⟩, 2, 0, 512⟩ [])) ∧ s.establishing 0 = none) (by decide +kernel)
  have hp := of_decide_eq_true hp
  obtain ⟨hex, hfenced⟩ := stamped_with_presented hr
  refine ⟨s, hr, hp, hex, ?_⟩
  obtain ⟨-, -, -, ha, hok, hfree⟩ := hp
  exact (hfenced _ _ 0 _ hok (if_pos ⟨hfree, rfl⟩) rfl ha).1

theorem deposed_write_executed :
    ∃ s : SharedServer (Fin 2),
      Reach (sharedStep (coldBackend smallGeometry.member fun _ _ => .ok ())) free (.start (.new smallGeometry)) s ∧
      s.executed = [⟨0, some 1, 2, Wire.ok⟩] ∧ s.server.replica.lastAppendLsn = 0 := by
  obtain ⟨s, hr, hp⟩ := Reach.exists_of_exec
    (sharedStep (coldBackend smallGeometry.member fun _ _ => .ok ())) free
    (.start (.new smallGeometry) : SharedServer (Fin 2))
    [.loginBegin 0 ⟨nilId, 7⟩, .loginEnd 0 (.error .timedOut, .new 512),
      .loginBegin 1 ⟨nilId, 9⟩, .loginEnd 1 (.error .timedOut, .new 512), .io 0 (.write ⟨⟨-1, -1⟩, 0, 0, 512⟩ [])]
    (fun s => s.executed = [⟨0, some 1, 2, Wire.ok⟩] ∧ s.server.replica.lastAppendLsn = 0) (by decide +kernel)
  exact ⟨s, hr, of_decide_eq_true hp⟩

end Shared

end CraftClient.Net
