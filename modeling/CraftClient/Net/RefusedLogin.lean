import CraftClient.Net.Session

namespace CraftClient.Net

open Replica Runs Wire

/-- `touched` is set while a LOGIN has come or gone in a session since the last HELO that was granted. -/
structure Compared where
  server : CraftTcpServer
  other : CraftTcpServer
  touched : Bool

inductive Arrival
  | loginBegin
  | loginEnd (res : Except ErrorCond LoginResult)
  | request (req : Request)
  | raft (r : MemReplica)

def compareStep (b : Backend) (s : Compared) : Arrival → Option Compared
  | .loginBegin =>
    some { s with server := s.server.loginBegin, touched := s.touched || s.server.sessionActive }
  | .loginEnd res =>
    some { s with
      server := (s.server.loginEnd (res, s.server.replica)).2
      touched := s.touched || s.server.sessionActive }
  | .request req =>
    let out := s.server.handle b req
    some ⟨out.2, (s.other.handle b req).2, s.touched && ¬ (out.1.op = .heloRsp ∧ out.1.status = Wire.ok)⟩
  | .raft r =>
    some { s with server := { s.server with replica := r }, other := { s.other with replica := r } }

/-- Every LOGIN is refused, and after one in a session the next request of the session is a HELO. -/
def Unnoticed (s : Compared) : Arrival → Prop
  | .loginEnd res => (s.server.loginReply res).status ≠ Wire.ok
  | .request (.login _) => False
  | .request (.helo _) | .request (.createVolume ..) => True
  | .request _ => s.touched = false
  | _ => True

instance : ∀ (s : Compared) (a : Arrival), Decidable (Unnoticed s a)
  | _, .loginEnd _ => inferInstanceAs (Decidable (_ ≠ _))
  | _, .request (.login _) => .isFalse nofun
  | _, .request (.helo _) | _, .request (.createVolume ..) | _, .loginBegin | _, .raft _ => .isTrue trivial
  | _, .request (.write ..) | _, .request (.read _) | _, .request (.keepalive _) | _, .request (.resolve _)
  | _, .request .logout => inferInstanceAs (Decidable (_ = _))

structure SameSession (v w : CraftTcpServer) : Prop where
  active : v.sessionActive = w.sessionActive
  term : v.sessionActive = true → v.sessionTerm = w.sessionTerm

structure ComparedInv (s : Compared) : Prop where
  replica : s.server.replica = s.other.replica
  session : s.touched = false → SameSession s.server s.other

variable {b : Backend} {s s' : Compared} {a : Arrival} {v w : CraftTcpServer} {req : Request}

lemma SameSession.of_eq (h : v.toTcpServer = w.toTcpServer) : SameSession v w :=
  ⟨congrArg TcpServer.sessionActive h, fun _ => congrArg TcpServer.sessionTerm h⟩

lemma SameSession.toTcpServer_eq (h : SameSession v w) (hr : v.replica = w.replica)
    (ha : v.sessionActive = true) : v.toTcpServer = w.toTcpServer := by
  have ht := h.term ha
  have hw := h.active
  rcases v with ⟨⟨r, t, x⟩, geo, n⟩
  rcases w with ⟨⟨r', t', x'⟩, geo', n'⟩
  dsimp only at hr ht hw
  rw [hr, ht, hw]

lemma handle_of_eq (h : v.toTcpServer = w.toTcpServer) (hreq : req.isIo = true ∨ req = .logout) :
    (v.handle b req).1 = (w.handle b req).1 ∧ (v.handle b req).2.toTcpServer = (w.handle b req).2.toTcpServer := by
  cases req with
  | write req body => simp only [CraftTcpServer.handle, CraftTcpServer.onWrite, h, and_self]
  | read req =>
    simp only [CraftTcpServer.handle, CraftTcpServer.onRead, h]
    split_ifs
    · exact ⟨rfl, rfl⟩
    · exact ⟨rfl, h⟩
  | keepalive req => simp only [CraftTcpServer.handle, CraftTcpServer.onKeepAlive, h, and_self]
  | resolve req => simp only [CraftTcpServer.handle, CraftTcpServer.onResolve, h, and_self]
  | logout =>
    simp only [CraftTcpServer.handle, CraftTcpServer.onLogout, h]
    split_ifs
    · exact ⟨rfl, rfl⟩
    · exact ⟨rfl, h⟩
  | _ => simp [Request.isIo] at hreq

lemma handle_of_inactive (hr : v.replica = w.replica) (hv : v.sessionActive = false) (hw : w.sessionActive = false)
    (hreq : req.isIo = true ∨ req = .logout) :
    (v.handle b req).1 = (w.handle b req).1 ∧ (v.handle b req).2 = v ∧ (w.handle b req).2 = w := by
  cases req with
  | write req body =>
    simp [CraftTcpServer.handle, CraftTcpServer.onWrite, TcpServer.onWrite, hv, hw, hr]
  | read req => simp [CraftTcpServer.handle, CraftTcpServer.onRead, hv, hw]
  | keepalive req => simp [CraftTcpServer.handle, CraftTcpServer.onKeepAlive, TcpServer.onKeepAlive, hv, hw]
  | resolve req => simp [CraftTcpServer.handle, CraftTcpServer.onResolve, TcpServer.onResolve, hv, hw]
  | logout => simp [CraftTcpServer.handle, CraftTcpServer.onLogout, hv, hw]
  | _ => simp [Request.isIo] at hreq

lemma SameSession.handle (h : SameSession v w) (hr : v.replica = w.replica)
    (hreq : req.isIo = true ∨ req = .logout) :
    (v.handle b req).1 = (w.handle b req).1 ∧ (v.handle b req).2.replica = (w.handle b req).2.replica ∧
      SameSession (v.handle b req).2 (w.handle b req).2 := by
  cases ha : v.sessionActive with
  | true =>
    obtain ⟨hrsp, heq⟩ := handle_of_eq (b := b) (h.toTcpServer_eq hr ha) hreq
    exact ⟨hrsp, congrArg TcpServer.replica heq, .of_eq heq⟩
  | false =>
    obtain ⟨hrsp, hv, hw⟩ := handle_of_inactive (b := b) hr ha (h.active ▸ ha) hreq
    rw [hv, hw]
    exact ⟨hrsp, hr, h⟩

lemma onHelo_raft (hb : b.raftEnabled = true) (v : CraftTcpServer) (req : HeloReq) :
    v.onHelo b req =
      if req.term = v.replica.term ∧ req.clientToken = v.replica.clientToken then
        (statusReply .heloRsp Wire.ok, { v with sessionTerm := req.term, sessionActive := true })
      else (statusReply .heloRsp Wire.staleTerm, v) := by
  simp only [CraftTcpServer.onHelo, CraftTcpServer.heloStatus, hb, if_true, ne_eq, ← not_and_or]
  by_cases hf : req.term = v.replica.term ∧ req.clientToken = v.replica.clientToken
  · rw [if_neg (not_not.mpr hf), if_pos hf, if_pos rfl]
  · rw [if_pos hf, if_neg hf, if_neg CraftTcpServer.ok_ne_staleTerm.symm]

lemma ComparedInv.reply (hb : b.raftEnabled = true) (h : ComparedInv s) (ha : Unnoticed s (.request req)) :
    (s.server.handle b req).1 = (s.other.handle b req).1 := by
  cases req with
  | login req => exact ha.elim
  | helo req =>
    simp only [CraftTcpServer.handle, onHelo_raft hb, h.replica]
    split_ifs <;> rfl
  | createVolume req body => rfl
  | logout => exact ((h.session ha).handle h.replica (Or.inr rfl)).1
  | _ => exact ((h.session ha).handle h.replica (Or.inl rfl)).1

lemma ComparedInv.request (hb : b.raftEnabled = true) (h : ComparedInv s) (ha : Unnoticed s (.request req))
    (hs : compareStep b s (.request req) = some s') : ComparedInv s' := by
  have hsession : ∀ req : Request, req.isIo = true ∨ req = .logout → s.touched = false →
      ComparedInv ⟨(s.server.handle b req).2, (s.other.handle b req).2, s.touched &&
        ¬ ((s.server.handle b req).1.op = .heloRsp ∧ (s.server.handle b req).1.status = Wire.ok)⟩ := by
    intro req hreq ht
    obtain ⟨-, hr, hses⟩ := (h.session ht).handle (b := b) h.replica hreq
    exact ⟨hr, fun _ => hses⟩
  cases req with
  | login req => exact ha.elim
  | helo req =>
    cases hs
    simp only [CraftTcpServer.handle, onHelo_raft hb, h.replica]
    split_ifs
    · exact ⟨rfl, fun _ => ⟨rfl, fun _ => rfl⟩⟩
    · refine ⟨h.replica, fun ht => h.session ?_⟩
      simpa [statusReply, CraftTcpServer.ok_ne_staleTerm.symm] using ht
  | createVolume req body =>
    cases hs
    refine ⟨h.replica, fun ht => h.session ?_⟩
    simpa [CraftTcpServer.handle, CraftTcpServer.onCreateVolume, statusReply] using ht
  | logout =>
    cases hs
    exact hsession .logout (Or.inr rfl) ha
  | write | read | keepalive | resolve =>
    cases hs
    exact hsession _ (Or.inl rfl) ha

lemma ComparedInv.step (hb : b.raftEnabled = true) (h : ComparedInv s) (ha : Unnoticed s a)
    (hs : compareStep b s a = some s') : ComparedInv s' := by
  cases a with
  | loginBegin =>
    cases hs
    refine ⟨h.replica, fun ht => ?_⟩
    rw [Bool.or_eq_false_iff] at ht
    refine ⟨(h.session ht.1).active, fun hact => ?_⟩
    cases ht.2.symm.trans hact
  | loginEnd res =>
    cases hs
    refine ⟨h.replica, fun ht => ?_⟩
    rw [Bool.or_eq_false_iff] at ht
    have hoff : (s.server.loginEnd (res, s.server.replica)).2.sessionActive = false := decide_eq_false ha
    refine ⟨?_, fun hact => ?_⟩
    · rw [hoff, ← (h.session ht.1).active, ht.2]
    · cases hoff.symm.trans hact
  | request req => exact h.request hb ha hs
  | raft r =>
    cases hs
    exact ⟨rfl, fun ht => ⟨(h.session ht).active, (h.session ht).term⟩⟩

theorem refused_login_unnoticed (b : Backend) (v : CraftTcpServer) :
    (b.raftEnabled = true → ∀ s, Reach (compareStep b) Unnoticed ⟨v, v, false⟩ s →
      ∀ req, Unnoticed s (.request req) → (s.server.handle b req).1 = (s.other.handle b req).1) ∧
    ∀ createVolume req, (coldHandle createVolume v (.login req)).1.status = Wire.ok := by
  refine ⟨fun hb s hs req hreq => ?_, fun _ _ => rfl⟩
  have hi : ComparedInv s :=
    hs.invariant ⟨rfl, fun _ => ⟨rfl, fun _ => rfl⟩⟩ fun _ _ _ h ha hstep => h.step hb ha hstep
  exact hi.reply hb hreq

def pickyEstablish (req : LoginReq) (term : UInt64) (r : MemReplica) : Except ErrorCond LoginResult × MemReplica :=
  if req.clientToken = 7 then (.ok ⟨[], r.lastAppendLsn, none⟩, r.coldApplyLogin 7 term)
  else if req.clientToken = 8 then (.error (.craft .noQuorum), r)
  else (.ok ⟨[], -1, some (List.replicate 16 1)⟩, r)

def pickyBackend : Backend := ⟨true, pickyEstablish, fun _ _ => .ok ()⟩

def inSession : CraftTcpServer := ((CraftTcpServer.new smallGeometry).handle pickyBackend (.login ⟨nilId, 7⟩)).2

def oneBlock : Request := .write ⟨⟨-1, -1⟩, 0, 0, 512⟩ []

theorem refused_login_unnoticed_again :
    ∃ s, Reach (compareStep pickyBackend) Unnoticed ⟨inSession, inSession, false⟩ s ∧
      s.server.nextTerm = 2 ∧ (s.server.handle pickyBackend oneBlock).1.status = Wire.ok ∧
      (s.server.handle pickyBackend oneBlock).1 = (s.other.handle pickyBackend oneBlock).1 := by
  obtain ⟨s, hs, hp⟩ := Reach.exists_of_exec (compareStep pickyBackend) Unnoticed ⟨inSession, inSession, false⟩
    [.loginBegin, .loginEnd (.error (.craft .noQuorum)), .request (.helo ⟨nilId, 7, 1⟩)]
    (fun s => s.touched = false ∧ s.server.nextTerm = 2 ∧
      (s.server.handle pickyBackend oneBlock).1.status = Wire.ok) (by decide +kernel)
  obtain ⟨ht, hn, hok⟩ := of_decide_eq_true hp
  exact ⟨s, hs, hn, hok, (refused_login_unnoticed pickyBackend inSession).1 rfl s hs oneBlock ht⟩

theorem refused_login_fences_session :
    (inSession.handle pickyBackend oneBlock).1.status = Wire.ok ∧
    ∀ token ∈ [8, 9],
      let login := inSession.handle pickyBackend (.login ⟨nilId, token⟩)
      login.1.status = (if token = 8 then Wire.noQuorum else Wire.notLeader) ∧
      (login.2.handle pickyBackend oneBlock).1.status = Wire.staleTerm ∧
      (login.2.handle pickyBackend (.read ⟨⟨-1, -1⟩, -1, 0, 512⟩)).1.status = Wire.staleTerm ∧
      (login.2.handle pickyBackend (.keepalive ⟨-1, -1⟩)).1.status = Wire.staleTerm :=
  ⟨by decide +kernel, List.forall_mem_cons.mpr
    ⟨by decide +kernel, List.forall_mem_singleton.mpr (by decide +kernel)⟩⟩

end CraftClient.Net
