import CraftClient.Net.ClusterFencing
import CraftClient.Net.TcpClient

namespace CraftClient.Net

open Cluster Replica Router Runs Wire

variable {κ : Type} {n : ℕ}

section Fence

def Request.Shaped (r : MemReplica) : Request → Prop
  | .write req body =>
    ¬ r.misaligned req.addr req.len ∧ ¬ (payload body).any fun p => p.length ≠ req.len.toNat
  | .read req => ¬ r.misaligned req.addr req.len
  | _ => True

variable {c : ClusterConn} {b : ClusterBackend} {r : MemReplica} {req : Request} {out : Reply × MemReplica}

lemma onIo_stale (hterm : c.bound = true → c.connTerm ≠ r.term) (hup : b.isUp = true) (hw : b.writeAllowed = true)
    (hshape : req.Shaped r) (h : c.onIo b r req = some out) : out.1.status = Wire.staleTerm := by
  by_cases hb : c.bound = true
  · have ht : ∀ h, (c.hdr h).term ≠ r.term := fun _ => hterm hb
    cases req with
    | write req body =>
      cases h
      have hd : r.doWrite (c.hdr req.hdr) req.dlsn req.addr req.len (payload body) = .error (.craft .staleTerm) := by
        rw [MemReplica.doWrite, if_neg hshape.1, if_neg hshape.2, if_pos (ht _)]
      simp [ClusterConn.onWrite, hb, hup, hw, hd, lsnReply, toWireStatus]
    | read req =>
      cases h
      have hd : r.doRead (c.hdr req.hdr) req.readLsn req.addr req.len req.len = .error (.craft .staleTerm) := by
        rw [MemReplica.doRead, if_neg hshape, if_neg (UInt64.lt_irrefl _), if_pos (ht _)]
      simp only [ClusterConn.onRead, hb, hup, readReply, MemReplica.doReadInto, hd]
      rfl
    | keepalive req =>
      cases h
      have hd : r.doKeepAlive (c.hdr req) = .error (.craft .staleTerm) := by rw [MemReplica.doKeepAlive, if_pos (ht _)]
      simp [ClusterConn.onKeepAlive, hb, hup, hd, lsnReply, toWireStatus]
    | _ => cases h
  · cases req with
    | write req body =>
      cases h
      simp [ClusterConn.onWrite, hb, lsnReply]
    | read req =>
      cases h
      simp [ClusterConn.onRead, hb, readRefused]
    | keepalive req =>
      cases h
      simp [ClusterConn.onKeepAlive, hb, lsnReply]
    | _ => cases h

end Fence

section Moves

variable {s s' : ClusterServer κ n} {a : ClusterAct κ} {k : κ} {t : UInt64} {stayed : Fin n → Bool}

inductive SessionMove (s s' : ClusterServer κ n) (a : ClusterAct κ) : Prop
  | quiet (mu : s'.sessMu = s.sessMu) (term : s'.net.term = s.net.term) (live : s'.liveTerm = s.liveTerm)
      (terms : ∀ q, (s'.net.members q).term = (s.net.members q).term)
  | begins (k : κ) (clientToken : UInt64) (c : Cluster.LoginCall n) (pc : LoginPc n) (act : a = .login k clientToken)
      (mu : s.sessMu = none) (mu' : s'.sessMu = some (k, .login c pc)) (taken : c.term = s.net.term + 1)
      (term : s'.net.term = c.term) (live : s'.liveTerm = s.liveTerm)
      (terms : ∀ q, (s'.net.members q).term = (s.net.members q).term)
  | goes (k : κ) (c : Cluster.LoginCall n) (pc pc' : LoginPc n) (mu : s.sessMu = some (k, .login c pc))
      (mu' : s'.sessMu = some (k, .login c pc')) (term : s'.net.term = s.net.term) (live : s'.liveTerm = s.liveTerm)
      (terms : ∀ q, (s'.net.members q).term = (s.net.members q).term ∨ (s'.net.members q).term = c.term)
  | granted (k : κ) (c : Cluster.LoginCall n) (pc : LoginPc n) (mu : s.sessMu = some (k, .login c pc))
      (mu' : s'.sessMu = none) (term : s'.net.term = s.net.term)
      (live : c.term ≠ 0 → s'.liveTerm = some c.term ∧ (s'.conns k).connTerm = c.term)
      (terms : ∀ q, (s'.net.members q).term = (s.net.members q).term ∨ (s'.net.members q).term = c.term)
  | asks (k : κ) (act : a = .logout k) (mu : s.sessMu = none) (mu' : s'.sessMu = some (k, .logout s.net.live))
      (term : s'.net.term = s.net.term) (live : s'.liveTerm = s.liveTerm)
      (terms : ∀ q, (s'.net.members q).term = (s.net.members q).term)
  | clears (k : κ) (m : Fin n) (rest : List (Fin n)) (mu : s.sessMu = some (k, .logout (m :: rest)))
      (mu' : s'.sessMu = some (k, .logout rest)) (term : s'.net.term = s.net.term) (live : s'.liveTerm = s.liveTerm)
      (terms : ∀ q, (s'.net.members q).term = if q = m then 0 else (s.net.members q).term)
  | ends (k : κ) (act : a = .goLogout) (mu : s.sessMu = some (k, .logout [])) (mu' : s'.sessMu = none)
      (term : s'.net.term = s.net.term) (live : s'.liveTerm = none)
      (terms : ∀ q, (s'.net.members q).term = (s.net.members q).term)

lemma SessionMove.refl (s : ClusterServer κ n) (a : ClusterAct κ) : SessionMove s s a := .quiet rfl rfl rfl fun _ => rfl

lemma sessionMove_goLogin {c : Cluster.LoginCall n} {pc : LoginPc n} [DecidableEq κ] {b : ClusterBackend}
    (hmu : s.sessMu = some (k, .login c pc)) (hs : clusterStep b s .goLogin = some s') :
    SessionMove s s' .goLogin ∧ s'.net.up = s.net.up := by
  have hterm := loginStep_term s.net.members c pc
  simp only [clusterStep, hmu] at hs
  cases hstep : loginStep s.net.members c pc with
  | mk members next =>
    simp only [hstep] at hs hterm
    have hq : ∀ q, (members q).term = (s.net.members q).term ∨ (members q).term = c.term :=
      fun q => (hterm q).imp_right And.left
    cases next with
    | inl pc' =>
      cases hs
      exact ⟨.goes k c pc pc' hmu rfl rfl rfl hq, rfl⟩
    | inr res =>
      cases hs
      have hres := (loginStep_result (congrArg Prod.snd hstep)).1
      simp only [ClusterServer.endLogin, hres]
      split_ifs with h0
      · exact ⟨.granted k c pc hmu rfl rfl (fun hne => absurd h0 hne) hq, rfl⟩
      · refine ⟨.granted k c pc hmu rfl rfl (fun _ => ⟨rfl, ?_⟩) hq, rfl⟩
        change (Function.update s.conns k ⟨c.term, true⟩ k).connTerm = c.term
        rw [Function.update_self]

lemma term_setMember {m : Fin n} {r : MemReplica} (hr : r.term = (s.net.members m).term) (q : Fin n) :
    ((s.setMember m r).net.members q).term = (s.net.members q).term := by
  simp only [ClusterServer.setMember, Function.update_apply]
  split_ifs with hq
  · rw [hr, hq]
  · rfl

lemma clusterStep_move [DecidableEq κ] {b : ClusterBackend} (hs : clusterStep b s a = some s') :
    SessionMove s s' a ∧ s'.net.up = s.net.up := by
  cases a with
  | login k clientToken =>
    simp only [clusterStep] at hs
    split_ifs at hs with hk
    rcases s.net.startLogin_cases (s.port k) clientToken with ⟨res, hst, -⟩ | ⟨-, -, -, hst⟩
    · rw [hst] at hs
      cases hs
      exact ⟨.refl s _, rfl⟩
    · rw [hst] at hs
      cases hs
      exact ⟨.begins k clientToken _ _ rfl (Option.isNone_iff_eq_none.mp hk.2) rfl rfl rfl rfl fun _ => rfl, rfl⟩
  | goLogin =>
    have hs' := hs
    simp only [clusterStep] at hs'
    split at hs'
    case h_1 k c pc hmu => exact sessionMove_goLogin hmu hs
    case h_2 => cases hs'
  | helo k req =>
    simp only [clusterStep] at hs
    split_ifs at hs <;> cases hs
    · exact ⟨.quiet rfl rfl rfl fun _ => rfl, rfl⟩
    · exact ⟨.refl s _, rfl⟩
  | io k req =>
    simp only [clusterStep] at hs
    split_ifs at hs
    obtain ⟨⟨rsp, r⟩, ho, rfl⟩ := Option.map_eq_some_iff.mp hs
    have hr := term_setMember (s := s) (ClusterConn.fencesIo_onIo ho).term
    dsimp only
    split_ifs
    · exact ⟨.quiet rfl rfl rfl hr, rfl⟩
    · exact ⟨.quiet rfl rfl rfl hr, rfl⟩
  | resolve k upto =>
    simp only [clusterStep] at hs
    split_ifs at hs
    · cases hs
      exact ⟨.refl s _, rfl⟩
    · split at hs <;> cases hs
      · exact ⟨.quiet rfl rfl rfl fun _ => rfl, rfl⟩
      · exact ⟨.refl s _, rfl⟩
  | goRound k =>
    obtain ⟨net, hg, rfl⟩ := Option.map_eq_some_iff.mp hs
    have hm := roundMoves_goRound hg
    exact ⟨.quiet rfl hm.term rfl hm.members, hm.up⟩
  | logout k =>
    simp only [clusterStep] at hs
    split_ifs at hs with hk hb hmu hl
    · cases hs
      exact ⟨.refl s _, rfl⟩
    · cases hs
      exact ⟨.asks k rfl (Option.not_isSome_iff_eq_none.mp hmu) rfl rfl rfl fun _ => rfl, rfl⟩
    · cases hs
      exact ⟨.refl s _, rfl⟩
  | goLogout =>
    simp only [clusterStep] at hs
    split at hs
    case h_1 k m rest hmu =>
      cases hs
      refine ⟨.clears k m rest hmu rfl rfl rfl fun q => ?_, rfl⟩
      simp only [ClusterServer.log, ClusterServer.setMember, Function.update_apply]
      split_ifs <;> rfl
    case h_2 k hmu =>
      cases hs
      exact ⟨.ends k rfl hmu rfl rfl rfl fun _ => rfl, rfl⟩
    case h_3 => cases hs

def Past (s : ClusterServer κ n) (t : UInt64) : Prop :=
  t ≤ s.net.term ∧ ∀ k c pc, s.sessMu = some (k, .login c pc) → t < c.term

structure Gone (s : ClusterServer κ n) (t : UInt64) (stayed : Fin n → Bool) : Prop where
  live : s.liveTerm ≠ some t
  members : ∀ m, stayed m = true → (s.net.members m).term ≠ t

def Clearing (s : ClusterServer κ n) (t : UInt64) (stayed : Fin n → Bool) (k : κ) : Prop :=
  ∃ rest, s.sessMu = some (k, .logout rest) ∧ ∀ m, stayed m = true → (s.net.members m).term ≠ t ∨ m ∈ rest

def NoWrap (s : ClusterServer κ n) (a : ClusterAct κ) : Prop :=
  ∀ k clientToken, a = .login k clientToken → s.net.term < s.net.term + 1

lemma Past.step (h : Past s t) (hw : NoWrap s a) (hm : SessionMove s s' a) : Past s' t := by
  cases hm with
  | quiet mu term => exact ⟨term ▸ h.1, mu ▸ h.2⟩
  | begins k clientToken c pc act mu mu' taken term =>
    have hlt : t < c.term := by
      rw [taken]
      exact UInt64.lt_of_le_of_lt h.1 (hw k clientToken act)
    refine ⟨term ▸ UInt64.le_of_lt hlt, ?_⟩
    rw [mu']
    rintro _ _ _ ⟨⟩
    exact hlt
  | goes k c pc pc' mu mu' term =>
    refine ⟨term ▸ h.1, ?_⟩
    rw [mu']
    rintro _ _ _ ⟨⟩
    exact h.2 k c pc mu
  | granted k c pc mu mu' term => exact ⟨term ▸ h.1, by rw [mu']; nofun⟩
  | asks k act mu mu' term => exact ⟨term ▸ h.1, by rw [mu']; nofun⟩
  | clears k m rest mu mu' term => exact ⟨term ▸ h.1, by rw [mu']; nofun⟩
  | ends k act mu mu' term => exact ⟨term ▸ h.1, by rw [mu']; nofun⟩

lemma Gone.of_same (h : Gone s t stayed) (live : s'.liveTerm = s.liveTerm)
    (terms : ∀ q, (s'.net.members q).term = (s.net.members q).term) : Gone s' t stayed :=
  ⟨live ▸ h.live, fun m hm => terms m ▸ h.members m hm⟩

lemma Gone.step (h : Gone s t stayed) (hp : Past s t) (ht : t ≠ 0) (hm : SessionMove s s' a) : Gone s' t stayed := by
  have hinstall : ∀ k c pc, s.sessMu = some (k, .login c pc) →
      (∀ q, (s'.net.members q).term = (s.net.members q).term ∨ (s'.net.members q).term = c.term) →
      ∀ m, stayed m = true → (s'.net.members m).term ≠ t := by
    intro k c pc mu terms m hm
    rcases terms m with hq | hq
    · rw [hq]
      exact h.members m hm
    · rw [hq]
      exact (UInt64.ne_of_lt (hp.2 k c pc mu)).symm
  cases hm with
  | quiet mu term live terms => exact h.of_same live terms
  | begins k clientToken c pc act mu mu' taken term live terms => exact h.of_same live terms
  | goes k c pc pc' mu mu' term live terms => exact ⟨live ▸ h.live, hinstall k c pc mu terms⟩
  | granted k c pc mu mu' term live terms =>
    refine ⟨?_, hinstall k c pc mu terms⟩
    have hlt := hp.2 k c pc mu
    have h0 : c.term ≠ 0 := by
      rintro h0
      rw [h0] at hlt
      exact absurd hlt (UInt64.not_lt.mpr (UInt64.zero_le))
    rw [(live h0).1]
    rintro ⟨⟩
    exact UInt64.lt_irrefl _ hlt
  | asks k act mu mu' term live terms => exact h.of_same live terms
  | clears k m rest mu mu' term live terms =>
    refine ⟨live ▸ h.live, fun q hq => ?_⟩
    rw [terms]
    split_ifs
    · exact ht.symm
    · exact h.members q hq
  | ends k act mu mu' term live terms =>
    refine ⟨by rw [live]; nofun, fun q hq => ?_⟩
    rw [terms]
    exact h.members q hq

lemma Clearing.step (h : Clearing s t stayed k) (ht : t ≠ 0) (hm : SessionMove s s' a) :
    Clearing s' t stayed k ∨ Gone s' t stayed := by
  obtain ⟨rest, hmu, hrest⟩ := h
  cases hm with
  | quiet mu term live terms =>
    refine Or.inl ⟨rest, mu.trans hmu, fun m hm => ?_⟩
    rw [terms]
    exact hrest m hm
  | begins k clientToken c pc act mu => cases mu.symm.trans hmu
  | goes k c pc pc' mu => cases mu.symm.trans hmu
  | granted k c pc mu => cases mu.symm.trans hmu
  | asks k act mu => cases mu.symm.trans hmu
  | clears j m rest' mu mu' term live terms =>
    cases mu.symm.trans hmu
    refine Or.inl ⟨rest', mu', fun q hq => ?_⟩
    rw [terms]
    split_ifs with hqm
    · exact Or.inl ht.symm
    · exact (hrest q hq).imp_right fun hmem => (List.mem_cons.mp hmem).resolve_left hqm
  | ends j act mu mu' term live terms =>
    cases mu.symm.trans hmu
    refine Or.inr ⟨by rw [live]; nofun, fun q hq => ?_⟩
    rw [terms]
    exact (hrest q hq).resolve_right List.not_mem_nil

end Moves

section Client

variable {s s' : TcpClient κ n} {a : TcpAct κ n} {b : ClusterBackend}

def LogoutOk (s : TcpClient κ n) : LogoutPc κ → Prop
  | .idle => True
  | .walk _ => s.term ≠ 0
  | .waiting _ k => s.term ≠ 0 ∧
    (s.oks k = false ∧ Clearing s.srv s.term s.stayed k ∨ Gone s.srv s.term s.stayed)

structure Ended (srv : ClusterServer κ n) (e : EndedSession n) : Prop where
  ne_zero : e.term ≠ 0
  past : Past srv e.term
  gone : Gone srv e.term e.stayed
  up : ∀ m, e.stayed m = true → srv.net.up m = true

structure ClientInv (s : TcpClient κ n) : Prop where
  progress : ∀ k c pc, s.srv.sessMu = some (k, .login c pc) → c.term = s.srv.net.term ∧ c.term ≠ 0
  grants : ∀ k t, s.grants k = some t → Past s.srv t
  login : s.loginOn ≠ none → s.pc = .idle
  term : Past s.srv s.term
  up : ∀ m, s.stayed m = true → s.srv.net.up m = true
  logout : LogoutOk s s.pc
  ended : ∀ e ∈ s.ended, Ended s.srv e

lemma ClientInv.progress_step {srv : ClusterServer κ n} {a : ClusterAct κ} (h : ClientInv s) (hw : NoWrap s.srv a)
    (hm : SessionMove s.srv srv a) {k : κ} {c : Cluster.LoginCall n} {pc : LoginPc n}
    (hmu : srv.sessMu = some (k, .login c pc)) : c.term = srv.net.term ∧ c.term ≠ 0 := by
  cases hm with
  | quiet mu term =>
    rw [term]
    exact h.progress k c pc (mu.symm.trans hmu)
  | begins j clientToken c' pc' act mu mu' taken term =>
    cases mu'.symm.trans hmu
    refine ⟨term.symm, fun h0 => ?_⟩
    have hlt := hw k clientToken act
    rw [← taken, h0] at hlt
    exact absurd hlt (UInt64.not_lt.mpr UInt64.zero_le)
  | goes j c' p p' mu mu' term =>
    cases mu'.symm.trans hmu
    rw [term]
    exact h.progress k c p mu
  | granted j c' pc' mu mu' => cases mu'.symm.trans hmu
  | asks j act mu mu' => cases mu'.symm.trans hmu
  | clears j m rest mu mu' => cases mu'.symm.trans hmu
  | ends j act mu mu' => cases mu'.symm.trans hmu

lemma ClientInv.of_move {a : ClusterAct κ} (h : ClientInv s) (hw : NoWrap s.srv a)
    (hm : SessionMove s.srv s'.srv a) (hup : s'.srv.net.up = s.srv.net.up)
    (hgrants : ∀ k t, s'.grants k = some t → s.grants k = some t ∨ Past s'.srv t) (hterm : s'.term = s.term)
    (hstayed : s'.stayed = s.stayed) (hended : s'.ended = s.ended) (hlogin : s'.loginOn ≠ none → s'.pc = .idle)
    (hlogout : LogoutOk s' s'.pc) : ClientInv s' where
  progress k c pc hmu := h.progress_step hw hm hmu
  grants k t ht := (hgrants k t ht).elim (fun hold => (h.grants k t hold).step hw hm) id
  login := hlogin
  term := hterm ▸ h.term.step hw hm
  up m hs := by
    rw [hup]
    exact h.up m (hstayed ▸ hs)
  logout := hlogout
  ended e he := by
    have hold := h.ended e (hended ▸ he)
    exact ⟨hold.ne_zero, hold.past.step hw hm, hold.gone.step hold.past hold.ne_zero hm,
      fun m hs => hup ▸ hold.up m hs⟩

lemma ClientInv.logoutOk_step {a : ClusterAct κ} (h : ClientInv s) (hm : SessionMove s.srv s'.srv a)
    (hterm : s'.term = s.term) (hstayed : s'.stayed = s.stayed) (hpc : s'.pc = s.pc)
    (hoks : ∀ k, s'.oks k = s.oks k ∨ s'.srv.sessMu = none) : LogoutOk s' s'.pc := by
  have hok := h.logout
  rw [hpc]
  cases hp : s.pc with
  | idle => trivial
  | walk hop =>
    rw [hp] at hok
    exact hterm.trans_ne hok
  | waiting hop k =>
    rw [hp] at hok
    obtain ⟨hne, hor⟩ := hok
    refine ⟨hterm.trans_ne hne, ?_⟩
    rw [hterm, hstayed]
    rcases hor with ⟨hf, hc⟩ | hg
    · rcases hc.step hne hm with hc' | hg'
      · refine Or.inl ⟨?_, hc'⟩
        rcases hoks k with heq | hmu
        · rw [heq, hf]
        · obtain ⟨rest, hrest, -⟩ := hc'
          cases hmu.symm.trans hrest
      · exact Or.inr hg'
    · exact Or.inr (hg.step h.term hne hm)

variable [DecidableEq κ]

lemma served_spec (s : TcpClient κ n) (a : ClusterAct κ) (srv : ClusterServer κ n) :
    (s.served a srv).srv = srv ∧ (s.served a srv).term = s.term ∧ (s.served a srv).stayed = s.stayed ∧
      (s.served a srv).pc = s.pc ∧ (s.served a srv).loginOn = s.loginOn ∧ (s.served a srv).ended = s.ended := by
  simp only [TcpClient.served]
  split <;> exact ⟨rfl, rfl, rfl, rfl, rfl, rfl⟩

lemma served_oks (s : TcpClient κ n) (a : ClusterAct κ) (srv : ClusterServer κ n) (k : κ) :
    (s.served a srv).oks k = s.oks k ∨ srv.sessMu = none := by
  simp only [TcpClient.served]
  split
  · exact Or.inl rfl
  · exact Or.inr ‹_›
  · exact Or.inl rfl

lemma ClientInv.served_grants {srv : ClusterServer κ n} {a : ClusterAct κ} (h : ClientInv s)
    (hm : SessionMove s.srv srv a) {k : κ} {t : UInt64} (ht : (s.served a srv).grants k = some t) :
    s.grants k = some t ∨ Past srv t := by
  simp only [TcpClient.served] at ht
  split at ht
  case h_1 j op hmu hnone =>
    simp only [Function.update_apply] at ht
    split_ifs at ht with hk
    · cases ht
      right
      cases hm with
      | quiet mu => cases hnone.symm.trans (mu.trans hmu)
      | begins i clientToken c pc act => cases act
      | goes i c pc pc' mu mu' => cases hnone.symm.trans mu'
      | granted i c pc mu mu' term live =>
        cases mu.symm.trans hmu
        obtain ⟨hc, h0⟩ := h.progress j c pc mu
        rw [(live h0).2]
        refine ⟨?_, by rw [mu']; nofun⟩
        rw [term, hc]
        exact UInt64.le_refl _
      | asks i act => cases act
      | clears i m rest mu mu' => cases hnone.symm.trans mu'
      | ends i act => cases act
    · exact Or.inl ht
  · exact Or.inl ht
  · exact Or.inl ht

lemma ClientInv.served {srv : ClusterServer κ n} {a : ClusterAct κ} (h : ClientInv s) (hw : NoWrap s.srv a)
    (hs : clusterStep b s.srv a = some srv) : ClientInv (s.served a srv) := by
  obtain ⟨hm, hup⟩ := clusterStep_move hs
  obtain ⟨hsrv, hterm, hstayed, hpc, hlogin, hended⟩ := served_spec s a srv
  rw [← hsrv] at hm hup
  refine h.of_move hw hm hup (fun k t ht => ?_) hterm hstayed hended ?_ ?_
  · rw [hsrv] at hm ⊢
    exact h.served_grants hm ht
  · rw [hlogin, hpc]
    exact h.login
  · refine h.logoutOk_step hm hterm hstayed hpc fun k => ?_
    rw [hsrv]
    exact served_oks s a srv k

omit [DecidableEq κ] in
lemma ClientInv.setUp (h : ClientInv s) (m : Fin n) (up : Bool) : ClientInv (s.setUp m up) := by
  have hle : ∀ st : Fin n → Bool, ∀ q, Function.update st m (st m && up) q = true → st q = true := by
    intro st q hq
    rw [Function.update_apply] at hq
    split_ifs at hq with hqm
    · rw [Bool.and_eq_true] at hq
      exact hqm ▸ hq.1
    · exact hq
  have hup : ∀ st : Fin n → Bool, (∀ q, st q = true → s.srv.net.up q = true) →
      ∀ q, Function.update st m (st m && up) q = true → Function.update s.srv.net.up m up q = true := by
    intro st hst q hq
    rw [Function.update_apply] at hq ⊢
    split_ifs at hq ⊢ with hqm
    · rw [Bool.and_eq_true] at hq
      exact hq.2
    · exact hst q hq
  refine ⟨h.progress, h.grants, h.login, h.term, hup _ h.up, ?_, fun e he => ?_⟩
  · have hok := h.logout
    change LogoutOk (s.setUp m up) s.pc
    cases hp : s.pc with
    | idle => trivial
    | walk hop =>
      rw [hp] at hok
      exact hok
    | waiting hop k =>
      rw [hp] at hok
      refine ⟨hok.1, hok.2.imp ?_ fun hg => ?_⟩
      · rintro ⟨hf, rest, hmu, hrest⟩
        exact ⟨hf, rest, hmu, fun q hq => hrest q (hle _ q hq)⟩
      · exact ⟨hg.live, fun q hq => hg.members q (hle _ q hq)⟩
  · obtain ⟨e, he', rfl⟩ := List.mem_map.mp he
    have hold := h.ended e he'
    exact ⟨hold.ne_zero, hold.past, ⟨hold.gone.live, fun q hq => hold.gone.members q (hle _ q hq)⟩, hup _ hold.up⟩

omit [DecidableEq κ] in
lemma logoutOk_nextTarget (hop : ℕ) (h : s.term ≠ 0) : LogoutOk s (nextTarget κ n hop) := by
  rw [nextTarget]
  split_ifs
  · exact h
  · trivial

omit [DecidableEq κ] in
lemma noWrap_of_ne {srv : ClusterServer κ n} {a : ClusterAct κ} (h : ∀ k clientToken, a ≠ .login k clientToken) :
    NoWrap srv a :=
  fun k clientToken ha => absurd ha (h k clientToken)

lemma clearing_of_logout {srv srv' : ClusterServer κ n} {k : κ} {stayed : Fin n → Bool}
    (hb : (srv.conns k).bound = true) (hup : ∀ m, stayed m = true → srv.net.up m = true)
    (hs : clusterStep b srv (.logout k) = some srv') (hmu : srv'.sessMu.isSome = true) (t : UInt64) :
    Clearing srv' t stayed k := by
  simp only [clusterStep, hb, not_true, if_false] at hs
  split_ifs at hs with hk hl hd
  · cases hs
    exact absurd hmu hl
  · cases hs
    exact ⟨srv.net.live, rfl, fun m hm => Or.inr (MemTransport.mem_live.mpr (hup m hm))⟩

omit [DecidableEq κ] in
lemma ClientInv.setProxy (h : ClientInv s) (m : Fin n) (p : Proxy κ) : ClientInv (s.setProxy m p) :=
  ⟨h.progress, h.grants, h.login, h.term, h.up, h.logout, h.ended⟩

omit [DecidableEq κ] in
lemma ClientInv.nextTarget (h : ClientInv s) (hpc : s.pc ≠ .idle) (hne : s.term ≠ 0) (hop : ℕ) :
    ClientInv { s with pc := nextTarget κ n hop } :=
  ⟨h.progress, h.grants, fun hl => absurd (h.login hl) hpc, h.term, h.up, logoutOk_nextTarget hop hne, h.ended⟩

lemma ClientInv.sendLogin {m : Fin n} {clientToken : UInt64} (h : ClientInv s)
    (hw : ∀ k, NoWrap s.srv (.login k clientToken)) (hs : tcpStep b s (.login m clientToken) = some s') :
    ClientInv s' := by
  simp only [tcpStep] at hs
  split at hs
  case h_1 k hpc hlogin hk =>
    obtain ⟨srv, hsrv, rfl⟩ := Option.map_eq_some_iff.mp hs
    obtain ⟨hm, hup⟩ := clusterStep_move hsrv
    have hidle : ∀ s' : TcpClient κ n, s'.pc = s.pc → LogoutOk s' s'.pc := by
      intro s' hs'
      rw [hs', hpc]
      trivial
    split_ifs
    · refine h.of_move (hw k) hm hup (fun j t ht => ?_) rfl rfl rfl (fun _ => hpc) (hidle _ rfl)
      simp only [Function.update_apply] at ht
      split_ifs at ht
      exact Or.inl ht
    · exact h.of_move (hw k) hm hup (fun _ _ ht => Or.inl ht) rfl rfl rfl (fun _ => hpc) (hidle _ rfl)
  case h_2 => cases hs

lemma ClientInv.helo {m : Fin n} {clientToken : UInt64} (h : ClientInv s)
    (hs : tcpStep b s (.helo m clientToken) = some s') : ClientInv s' := by
  simp only [tcpStep] at hs
  split at hs
  case h_1 k bound hk =>
    have hmove : ∀ req srv, clusterStep b s.srv (.helo k req) = some srv → ClientInv { s with srv := srv } := by
      intro req srv hsrv
      obtain ⟨hm, hup⟩ := clusterStep_move hsrv
      have hw : NoWrap s.srv (.helo k req) := noWrap_of_ne (by rintro _ _ ⟨⟩)
      exact h.of_move hw hm hup (fun _ _ ht => Or.inl ht) rfl rfl rfl h.login
        (h.logoutOk_step hm rfl rfl rfl fun _ => Or.inl rfl)
    split_ifs at hs
    · obtain ⟨srv, hsrv, rfl⟩ := Option.map_eq_some_iff.mp hs
      exact (hmove _ srv hsrv).setProxy _ _
    · obtain ⟨srv, hsrv, rfl⟩ := Option.map_eq_some_iff.mp hs
      exact hmove _ srv hsrv
  case h_2 => cases hs

lemma ClientInv.ask {hop : ℕ} (h : ClientInv s) (hpc : s.pc = .walk hop) (ha : LogoutBound s .ask)
    (hs : s.ask b hop = some s') : ClientInv s' := by
  have hidle : s.pc ≠ .idle := by
    rw [hpc]
    rintro ⟨⟩
  have hne : s.term ≠ 0 := by
    have hok := h.logout
    rwa [hpc] at hok
  simp only [TcpClient.ask] at hs
  split at hs
  case h_1 =>
    cases hs
    exact h.nextTarget hidle hne hop
  case h_2 k hk =>
    have hb : s.srv.conns k = ⟨s.term, true⟩ := by simpa [LogoutBound, hpc, hk] using ha
    obtain ⟨srv, hsrv, rfl⟩ := Option.map_eq_some_iff.mp hs
    obtain ⟨hm, hup⟩ := clusterStep_move hsrv
    have hw : NoWrap s.srv (.logout k) := noWrap_of_ne (by rintro _ _ ⟨⟩)
    rw [hb, if_neg (by simp)]
    split_ifs with hmu
    · refine h.of_move hw hm hup (fun _ _ ht => Or.inl ht) rfl rfl rfl (fun hl => absurd (h.login hl) hidle) ⟨hne, ?_⟩
      exact Or.inl ⟨Function.update_self .., clearing_of_logout (by rw [hb]) h.up hsrv hmu s.term⟩
    · exact h.of_move hw hm hup (fun _ _ ht => Or.inl ht) rfl rfl rfl (fun hl => absurd (h.login hl) hidle)
        (logoutOk_nextTarget hop hne)

omit [DecidableEq κ] in
lemma past_zero {srv : ClusterServer κ n}
    (h : ∀ k c pc, srv.sessMu = some (k, .login c pc) → c.term ≠ 0) : Past srv 0 :=
  ⟨UInt64.zero_le, fun k c pc hmu => UInt64.pos_iff_ne_zero.mpr (h k c pc hmu)⟩

lemma ClientInv.receive (h : ClientInv s) (hs : tcpStep b s .receive = some s') : ClientInv s' := by
  simp only [tcpStep] at hs
  split at hs
  case h_1 hop k hpc =>
    split_ifs at hs with hok
    cases hs
    have hlog := h.logout
    rw [hpc] at hlog
    obtain ⟨hne, hor⟩ := hlog
    have hgone : Gone s.srv s.term s.stayed := by
      refine hor.resolve_left fun hc => ?_
      cases hc.1.symm.trans hok
    refine ⟨h.progress, h.grants, fun _ => rfl, past_zero fun k c pc hmu => (h.progress k c pc hmu).2, h.up, trivial,
      fun e he => ?_⟩
    rcases List.mem_cons.mp he with rfl | he
    · exact ⟨hne, h.term, hgone, h.up⟩
    · exact h.ended e he
  case h_2 => cases hs

lemma ClientInv.fault (h : ClientInv s) (hs : tcpStep b s .fault = some s') : ClientInv s' := by
  have hlog := h.logout
  simp only [tcpStep] at hs
  split at hs
  case h_1 hop hpc =>
    cases hs
    rw [hpc] at hlog
    have hidle : s.pc ≠ .idle := by
      rw [hpc]
      rintro ⟨⟩
    exact (h.setProxy (target s.leader hop) ⟨none, none⟩).nextTarget hidle hlog hop
  case h_2 hop k hpc =>
    cases hs
    rw [hpc] at hlog
    have hidle : s.pc ≠ .idle := by
      rw [hpc]
      rintro ⟨⟩
    exact (h.setProxy (target s.leader hop) ⟨none, none⟩).nextTarget hidle hlog.1 hop
  case h_3 => cases hs

lemma ClientInv.step (h : ClientInv s) (ha : LogoutBound s a) (hs : tcpStep b s a = some s') : ClientInv s' := by
  cases a with
  | server a =>
    obtain ⟨srv, hsrv, rfl⟩ := Option.map_eq_some_iff.mp hs
    refine h.served ?_ hsrv
    rintro k clientToken rfl
    exact ha
  | setUp m up =>
    cases hs
    exact h.setUp m up
  | setLeader m =>
    cases hs
    have hm : SessionMove s.srv { s.srv with net := { s.srv.net with leader := m } } .goLogout :=
      .quiet rfl rfl rfl fun _ => rfl
    have hw : NoWrap s.srv .goLogout := noWrap_of_ne (by rintro _ _ ⟨⟩)
    exact h.of_move hw hm rfl (fun _ _ ht => Or.inl ht) rfl rfl rfl h.login
      (h.logoutOk_step hm rfl rfl rfl fun _ => Or.inl rfl)
  | connect m k =>
    simp only [tcpStep] at hs
    split_ifs at hs
    cases hs
    exact h.setProxy _ _
  | drop m =>
    cases hs
    exact h.setProxy _ _
  | login m clientToken => exact h.sendLogin (fun _ _ _ _ => ha) hs
  | loginReply =>
    obtain ⟨⟨m, k⟩, hl, hs⟩ := Option.bind_eq_some_iff.mp hs
    obtain ⟨t, ht, hs⟩ := Option.bind_eq_some_iff.mp hs
    cases hs
    have hpc := h.login (by rw [hl]; rintro ⟨⟩)
    refine ⟨h.progress, h.grants, absurd rfl, h.grants k t ht, h.up, ?_, h.ended⟩
    change LogoutOk _ s.pc
    rw [hpc]
    trivial
  | loginFault =>
    obtain ⟨⟨m, k⟩, hl, hs⟩ := Option.bind_eq_some_iff.mp hs
    cases hs
    exact ⟨h.progress, h.grants, absurd rfl, h.term, h.up, h.logout, h.ended⟩
  | helo m clientToken => exact h.helo hs
  | logout =>
    simp only [tcpStep] at hs
    split at hs
    case h_1 hpc hl =>
      split_ifs at hs with ht
      cases hs
      exact ⟨h.progress, h.grants, fun hne => absurd hl hne, h.term, fun _ hm => hm, ht, h.ended⟩
    case h_2 => cases hs
  | ask =>
    simp only [tcpStep] at hs
    split at hs
    case h_1 hop hpc => exact h.ask hpc ha hs
    case h_2 => cases hs
  | receive => exact h.receive hs
  | fault => exact h.fault hs

theorem logout_ok_ends_session {pageSize : UInt32} {up writeAllowed : Fin n → Bool} {leader l : Fin n}
    {port : κ → Fin n} (h : Reach (tcpStep b) LogoutBound (.start (.start pageSize up writeAllowed leader port) l) s)
    {e : EndedSession n} (he : e ∈ s.ended) :
    s.srv.liveTerm ≠ some e.term ∧
      ∀ k req rsp r, (s.srv.conns k).connTerm = e.term → e.stayed (s.srv.port k) = true →
        s.srv.onIo b k req = some (rsp, r) →
        r = s.srv.net.members (s.srv.port k) ∧ (s.srv.writeAllowed (s.srv.port k) = true →
          req.Shaped (s.srv.net.members (s.srv.port k)) → rsp.status = Wire.staleTerm) := by
  have hi : ClientInv s := by
    refine h.invariant ⟨nofun, nofun, fun _ => rfl, past_zero nofun, nofun, trivial, nofun⟩ ?_
    exact fun _ _ _ hi ha hs => hi.step ha hs
  have hend := hi.ended e he
  refine ⟨hend.gone.live, fun k req rsp r hk hst ho => ?_⟩
  have hterm := hend.gone.members _ hst
  have hf := ClusterConn.fencesIo_onIo ho
  refine ⟨hf.refused fun hok => hterm ?_, fun hwa hshape => ?_⟩
  · rw [← (hf.ok hok).2.2, hk]
  · refine onIo_stale (fun _ => ?_) (hend.up _ hst) hwa hshape ho
    rw [hk]
    exact hterm.symm

def fiveLines : TcpClient (Fin 5) 3 :=
  .start (.start 512 (fun _ => true) (fun _ => true) 0 fun k => [0, 0, 1, 2, 1].get k) 0

def loggedIn : List (TcpAct (Fin 5) 3) :=
  List.flatten [[.connect 0 0, .login 0 7], List.replicate 16 (.server .goLogin),
    [.loginReply, .server (.helo 4 ⟨nilId, 7, 1⟩)]]

theorem logout_ok_ends_session_newLeader :
    ∃ s e, Reach (tcpStep smallCluster) LogoutBound fiveLines s ∧ e ∈ s.ended ∧ e.term = 1 ∧
      e.stayed 1 = true ∧ s.srv.liveTerm ≠ some 1 ∧
      ((s.srv.onIo smallCluster 4 (.keepalive ⟨-1, -1⟩)).all fun o => o.1.status = Wire.staleTerm) = true := by
  obtain ⟨s, hs, hp⟩ := Reach.exists_of_exec (tcpStep smallCluster) LogoutBound fiveLines
    (List.flatten [loggedIn, [.connect 1 2, .helo 1 7, .setLeader 1, .logout, .ask, .ask],
      List.replicate 4 (.server .goLogout), [.receive]])
    (fun s => (s.ended.head?.any fun e => decide (e.term = 1 ∧ e.stayed 1 = true)) ∧
      s.srv.conns 4 = ⟨1, true⟩ ∧ s.srv.port 4 = 1 ∧ s.srv.writeAllowed 1 = true) (by decide +kernel)
  obtain ⟨hhead, hconn, hport, hwa⟩ := of_decide_eq_true hp
  obtain ⟨e, he, hd⟩ := (Option.any_eq_true _ _).mp hhead
  obtain ⟨ht, hst⟩ := of_decide_eq_true hd
  have hmem := List.mem_of_mem_head? he
  obtain ⟨hlive, hio⟩ := logout_ok_ends_session hs hmem
  refine ⟨s, e, hs, hmem, ht, hst, ht ▸ hlive, ?_⟩
  rw [Option.all_eq_true]
  rintro ⟨rsp, r⟩ ho
  refine decide_eq_true ((hio 4 _ rsp r ?_ ?_ ho).2 ?_ trivial)
  · rw [hconn, ht]
  · rw [hport, hst]
  · rw [hport, hwa]

theorem unbound_logout_ok :
    ∃ s, Reach (tcpStep smallCluster) free fiveLines s ∧ s.term = 0 ∧
      (s.ended.map fun e => (e.term, e.stayed 1)) = [(1, true)] ∧ s.srv.liveTerm = some 1 ∧
      ((s.srv.onIo smallCluster 4 (.write ⟨⟨-1, -1⟩, 0, 0, 512⟩ [])).any fun o => o.1.status = Wire.ok) = true := by
  obtain ⟨s, hs, hp⟩ := Reach.exists_of_exec (tcpStep smallCluster) free fiveLines
    (List.flatten [loggedIn, [.drop 0, .connect 0 1, .logout, .ask]])
    (fun s => s.term = 0 ∧ (s.ended.map fun e => (e.term, e.stayed 1)) = [(1, true)] ∧ s.srv.liveTerm = some 1 ∧
      ((s.srv.onIo smallCluster 4 (.write ⟨⟨-1, -1⟩, 0, 0, 512⟩ [])).any fun o => o.1.status = Wire.ok) = true)
    (by decide +kernel)
  exact ⟨s, hs, of_decide_eq_true hp⟩

end Client

end CraftClient.Net
