import CraftClient.Net.ClusterSession

namespace CraftClient.Net

open Cluster Replica Router Runs Wire

variable {κ : Type} {n : ℕ}

section Inv

variable {s s' : ClusterServer κ n} {b : ClusterBackend} {k : κ}

def SessionTerms (s : ClusterServer κ n) : Option (κ × SessionOp n) → Prop
  | none =>
    (∀ t, s.liveTerm = some t → t = s.net.term ∧ t ≠ 0) ∧
      ∀ m, s.net.up m = true → (s.net.members m).term = s.liveTerm.getD 0
  | some (_, .login c pc) =>
    c.term = s.net.term ∧ s.net.term ≠ 0 ∧ (∀ j, (s.conns j).bound = true → (s.conns j).connTerm < s.net.term) ∧
      ∀ m, s.net.up m = true →
        ((s.net.members m).term = s.liveTerm.getD 0 ∨ (s.net.members m).term = s.net.term) ∧
        ((s.net.members m).term = s.net.term ∨ ∃ rest, pc.toInstall c = some rest ∧ m ∈ rest)
  | some (k, .logout rest) =>
    s.liveTerm = some s.net.term ∧ (s.conns k).connTerm = s.net.term ∧ s.net.term ≠ 0 ∧
      ∀ m, s.net.up m = true →
        ((s.net.members m).term = 0 ∨ (s.net.members m).term = s.net.term) ∧
        ((s.net.members m).term = 0 ∨ m ∈ rest)

structure ClusterInv (s : ClusterServer κ n) : Prop where
  bound : ∀ k, (s.conns k).bound = true → (s.conns k).connTerm ≠ 0 ∧ (s.conns k).connTerm ≤ s.net.term
  newest : ∀ k, (s.conns k).bound = true → s.deposed k = false → (s.conns k).connTerm = s.net.term
  current : ∀ k, (s.conns k).bound = true → s.loggedOut k = false → (s.conns k).connTerm = s.net.term →
    s.sessMu = none ∧ s.liveTerm = some (s.conns k).connTerm
  terms : SessionTerms s s.sessMu
  rounds : ∀ k, isRunning (s.net.rounds k) = true → s.sessMu = none ∧ s.liveTerm = some (s.conns k).connTerm
  executed : ∀ e ∈ s.executed, e.live = some e.connTerm

lemma ClusterInv.live_of_term (h : ClusterInv s) {m : Fin n} (hb : (s.conns k).bound = true)
    (hu : s.net.up m = true) (ht : (s.conns k).connTerm = (s.net.members m).term) :
    s.liveTerm = some (s.conns k).connTerm := by
  have hne := (h.bound k hb).1
  have hbase : (s.net.members m).term = s.liveTerm.getD 0 → s.liveTerm = some (s.conns k).connTerm := by
    intro hm
    rw [ht, hm] at hne ⊢
    cases hl : s.liveTerm with
    | none => simp [hl] at hne
    | some t => rfl
  have hT := h.terms
  cases hmu : s.sessMu with
  | none =>
    rw [hmu] at hT
    exact hbase (hT.2 m hu)
  | some holder =>
    obtain ⟨j, op⟩ := holder
    rw [hmu] at hT
    cases op with
    | login c pc =>
      obtain ⟨-, -, hlt, hm⟩ := hT
      rcases (hm m hu).1 with hold | hnew
      · exact hbase hold
      · have hk := hlt k hb
        rw [ht, hnew, UInt64.lt_iff_toNat_lt] at hk
        exact absurd hk (lt_irrefl _)
    | logout rest =>
      obtain ⟨hl, -, -, hm⟩ := hT
      rcases (hm m hu).1 with hz | hnew
      · exact absurd (ht.trans hz) hne
      · rw [hl, ht, hnew]

lemma ClusterInv.log (h : ClusterInv s) (hl : s.liveTerm = some (s.conns k).connTerm) : ClusterInv (s.log k) := by
  refine ⟨h.bound, h.newest, h.current, ?_, h.rounds, ?_⟩
  · exact h.terms
  · intro e he
    rcases List.mem_cons.mp he with rfl | he
    · exact hl
    · exact h.executed e he

lemma SessionTerms.of_net {net : MemTransport κ n} {mu : Option (κ × SessionOp n)} (h : SessionTerms s mu)
    (hu : net.up = s.net.up) (ht : net.term = s.net.term) (hm : ∀ m, (net.members m).term = (s.net.members m).term) :
    SessionTerms { s with net := net } mu := by
  cases mu with
  | none =>
    refine ⟨fun t hl => ?_, fun m hm' => ?_⟩
    · rw [ht]
      exact h.1 t hl
    · rw [hm]
      exact h.2 m (hu ▸ hm')
  | some holder =>
    obtain ⟨j, op⟩ := holder
    cases op with
    | login c pc =>
      simp only [SessionTerms, hu, ht, hm]
      exact h
    | logout rest =>
      simp only [SessionTerms, hu, ht, hm]
      exact h

lemma ClusterInv.of_net {net : MemTransport κ n} (h : ClusterInv s) (hu : net.up = s.net.up)
    (ht : net.term = s.net.term) (hm : ∀ m, (net.members m).term = (s.net.members m).term)
    (hr : ∀ k, isRunning (net.rounds k) = true →
      isRunning (s.net.rounds k) = true ∨ s.sessMu = none ∧ s.liveTerm = some (s.conns k).connTerm) :
    ClusterInv { s with net := net } := by
  refine ⟨?_, ?_, ?_, h.terms.of_net hu ht hm, fun k hk => ?_, h.executed⟩
  · rw [ht]
    exact h.bound
  · rw [ht]
    exact h.newest
  · rw [ht]
    exact h.current
  · rcases hr k hk with hk | hk
    · exact h.rounds k hk
    · exact hk

lemma ClusterInv.setMember (h : ClusterInv s) {m : Fin n} {r : MemReplica} (hr : r.term = (s.net.members m).term) :
    ClusterInv (s.setMember m r) := by
  refine h.of_net rfl rfl (fun q => ?_) fun k hk => Or.inl hk
  simp only [Function.update_apply]
  split_ifs with hq
  · rw [hr, hq]
  · rfl

variable [DecidableEq κ]

lemma ClusterInv.bind (h : ClusterInv s) {t : UInt64} (hmu : s.sessMu = none) (hl : s.liveTerm = some t)
    (hi : isRunning (s.net.rounds k) = false) : ClusterInv (s.bind k t) := by
  have hT := h.terms
  rw [hmu] at hT
  obtain ⟨heq, hne⟩ := hT.1 t hl
  refine ⟨fun j hj => ?_, fun j hj hd => ?_, fun j hj hs ht => ?_, ?_, fun j hj => ?_, h.executed⟩
  · simp only [ClusterServer.bind, Function.update_apply] at hj ⊢
    split_ifs at hj ⊢
    · exact ⟨hne, heq ▸ UInt64.le_refl t⟩
    · exact h.bound j hj
  · simp only [ClusterServer.bind, Function.update_apply] at hj hd ⊢
    split_ifs at hj hd ⊢
    · exact heq
    · exact h.newest j hj hd
  · simp only [ClusterServer.bind, Function.update_apply] at hj hs ht ⊢
    split_ifs at hj hs ht ⊢
    · exact ⟨hmu, hl⟩
    · exact h.current j hj hs ht
  · simp only [ClusterServer.bind, hmu]
    exact hT
  · have hjk : j ≠ k := by
      rintro rfl
      exact Bool.false_ne_true (hi.symm.trans hj)
    simp only [ClusterServer.bind, Function.update_of_ne hjk]
    exact h.rounds j hj

lemma onHelo_ok {c : ClusterConn} {req : HeloReq} (h : (c.onHelo b req).1.status = Wire.ok) :
    b.sessActive = true ∧ (c.onHelo b req).2.connTerm = b.sessTerm := by
  rw [ClusterConn.onHelo] at h ⊢
  split_ifs at h ⊢ with hs
  · exact ⟨hs.1, rfl⟩
  · exact absurd h ClusterConn.staleTerm_ne_ok

lemma ClusterInv.helo (h : ClusterInv s) {req : HeloReq} (hs : clusterStep b s (.helo k req) = some s') :
    ClusterInv s' := by
  simp only [clusterStep] at hs
  split_ifs at hs with hi hrsp
  · cases hs
    obtain ⟨ha, hc⟩ := onHelo_ok hrsp
    rw [hc]
    apply h.bind (Option.isNone_iff_eq_none.mp hi.2) _ hi.1.2
    exact if_pos ha
  · cases hs
    exact h

lemma ClusterInv.io (h : ClusterInv s) {req : Request} (hs : clusterStep b s (.io k req) = some s') :
    ClusterInv s' := by
  simp only [clusterStep] at hs
  split_ifs at hs with hi
  obtain ⟨⟨rsp, r⟩, ho, hs⟩ := Option.map_eq_some_iff.mp hs
  have hf := ClusterConn.fencesIo_onIo ho
  have hset := h.setMember hf.term
  simp only at hs
  split_ifs at hs with hrsp
  · cases hs
    obtain ⟨hb, hu, ht⟩ := hf.ok hrsp
    exact hset.log (h.live_of_term hb hu ht)
  · cases hs
    exact hset

omit [DecidableEq κ] in
lemma startResolution_running {net : MemTransport κ n} {caller : Fin n} {term : UInt64} {upto : ℤ} {call : RoundCall n}
    {pc : RoundPc n} (h : startResolution net caller term upto = .running call pc) : term = net.term := by
  rw [startResolution] at h
  split_ifs at h with h₁ h₂ h₃
  exact not_not.mp h₃

lemma ClusterInv.resolve (h : ClusterInv s) {upto : ℤ} (hok : InSession s (.resolve k upto))
    (hs : clusterStep b s (.resolve k upto) = some s') : ClusterInv s' := by
  simp only [clusterStep] at hs
  split at hs
  case isTrue hi =>
    split at hs
    case isTrue =>
      cases hs
      exact h
    case isFalse hb =>
      rw [not_or, not_not, not_not] at hb
      split at hs
      case h_1 call pc hrun =>
        cases hs
        obtain ⟨hmu, hl⟩ := h.current k hb.1 (hok hb.1) (startResolution_running hrun)
        refine ClusterInv.log (h.of_net rfl rfl (fun _ => rfl) fun j hj => ?_) hl
        simp only [Function.update_apply] at hj
        split_ifs at hj with hjk
        · rw [hjk]
          exact Or.inr ⟨hmu, hl⟩
        · exact Or.inl hj
      case h_2 =>
        cases hs
        exact h
  case isFalse => cases hs

lemma ClusterInv.goRound (h : ClusterInv s) (hs : clusterStep b s (.goRound k) = some s') : ClusterInv s' := by
  obtain ⟨net, hg, rfl⟩ := Option.map_eq_some_iff.mp hs
  have hm := roundMoves_goRound hg
  have hn : ClusterInv { s with net := net } := h.of_net hm.up hm.term hm.members fun j hj => Or.inl (hm.rounds j hj)
  exact hn.log (h.rounds k hm.running).2

lemma ClusterInv.login (h : ClusterInv s) {clientToken : UInt64} (hok : InSession s (.login k clientToken))
    (hs : clusterStep b s (.login k clientToken) = some s') : ClusterInv s' := by
  obtain ⟨hr, hlt⟩ := hok
  simp only [clusterStep] at hs
  split at hs
  case isFalse => cases hs
  case isTrue hi =>
    have hT := h.terms
    rw [Option.isNone_iff_eq_none.mp hi.2] at hT
    rcases s.net.startLogin_cases (s.port k) clientToken with ⟨res, he, -⟩ | ⟨-, -, -, he⟩
    · rw [he] at hs
      cases hs
      exact h
    · rw [he] at hs
      cases hs
      have hconn : ∀ j, (s.conns j).bound = true → (s.conns j).connTerm < s.net.term + 1 := fun j hj =>
        UInt64.lt_of_le_of_lt (h.bound j hj).2 hlt
      have hne : s.net.term + 1 ≠ 0 := by
        intro h0
        rw [h0, UInt64.lt_iff_toNat_lt] at hlt
        exact absurd hlt (Nat.not_lt_zero _)
      refine ⟨fun j hj => ⟨(h.bound j hj).1, UInt64.le_of_lt (hconn j hj)⟩, nofun, fun j hj _ ht => ?_, ?_,
        fun j hj => absurd hj (by simp [hr j]), h.executed⟩
      · exact absurd ht (UInt64.ne_of_lt (hconn j hj))
      · exact ⟨rfl, hne, hconn, fun m hm => ⟨Or.inl (hT.2 m hm), Or.inr ⟨_, rfl, MemTransport.mem_live.mpr hm⟩⟩⟩

lemma ClusterInv.logout (h : ClusterInv s) (hok : InSession s (.logout k))
    (hs : clusterStep b s (.logout k) = some s') : ClusterInv s' := by
  simp only [clusterStep] at hs
  split at hs
  case isFalse => cases hs
  case isTrue hi =>
    split at hs
    case isTrue =>
      cases hs
      exact h
    case isFalse hb =>
      rw [not_not] at hb
      obtain ⟨hd, hlo⟩ := hok.1 hb
      have ht := h.newest k hb hd
      obtain ⟨hmu, hl⟩ := h.current k hb hlo ht
      have hT := h.terms
      rw [hmu] at hT
      split_ifs at hs
      · cases hs
        exact h
      · cases hs
        refine ClusterInv.log ?_ hl
        refine ⟨h.bound, h.newest, nofun, ?_, fun j hj => absurd hj (by simp [hok.2 j]), h.executed⟩
        rw [ht] at hl
        refine ⟨hl, ht, (hT.1 _ hl).2, fun m hm => ?_⟩
        have hm' := hT.2 m hm
        rw [hl] at hm'
        exact ⟨Or.inr hm', Or.inr (MemTransport.mem_live.mpr hm)⟩

lemma loginStep_result {members : Fin n → MemReplica} {c : Cluster.LoginCall n} {pc : LoginPc n}
    {res : Cluster.LoginResult n} (h : (loginStep members c pc).2 = .inr res) :
    res.term = c.term ∧ pc.toInstall c = none := by
  cases pc with
  | check rest rs =>
    cases rest with
    | nil =>
      cases h
      exact ⟨rfl, rfl⟩
    | cons m rest => cases h
  | peek rest | sync rest | install rest | truncate rest => cases rest <;> cases h

omit [DecidableEq κ] in
lemma ClusterInv.held (h : ClusterInv s) {op : SessionOp n} (hmu : s.sessMu = some (k, op)) :
    (∀ j, isRunning (s.net.rounds j) ≠ true) ∧
      ∀ j, (s.conns j).bound = true → s.loggedOut j = false → (s.conns j).connTerm ≠ s.net.term := by
  constructor
  · intro j hj
    rw [(h.rounds j hj).1] at hmu
    cases hmu
  · intro j hj hlo ht
    rw [(h.current j hj hlo ht).1] at hmu
    cases hmu

lemma ClusterInv.endLogin (h : ClusterInv s) {op : SessionOp n} (hmu : s.sessMu = some (k, op)) (hne : s.net.term ≠ 0)
    (hlt : ∀ j, (s.conns j).bound = true → (s.conns j).connTerm < s.net.term)
    {members : Fin n → MemReplica} (hm : ∀ m, s.net.up m = true → (members m).term = s.net.term) :
    ClusterInv ({ s with net := { s.net with members := members } }.endLogin k s.net.term) := by
  obtain ⟨hr, -⟩ := h.held hmu
  -- The session is open before its connection is bound.
  have hopen : ClusterInv { s with
      net := { s.net with members := members }
      sessMu := none
      sessActive := true
      sessTerm := s.net.term } := by
    refine ⟨h.bound, h.newest, fun j hj _ ht => ?_, ⟨fun t ht => ?_, hm⟩, fun j hj => absurd hj (hr j), h.executed⟩
    · exact absurd ht (UInt64.ne_of_lt (hlt j hj))
    · cases ht
      exact ⟨rfl, hne⟩
  rw [ClusterServer.endLogin, if_neg hne]
  exact hopen.bind rfl rfl (Bool.eq_false_of_not_eq_true (hr k))

lemma ClusterInv.goLogin (h : ClusterInv s) (hs : clusterStep b s .goLogin = some s') : ClusterInv s' := by
  simp only [clusterStep] at hs
  split at hs
  case h_1 k c pc hmu =>
    obtain ⟨hr, hcur⟩ := h.held hmu
    have hT := h.terms
    rw [hmu] at hT
    obtain ⟨hc, hne, hlt, hm⟩ := hT
    have hkept : ∀ m, (s.net.members m).term = s.net.term →
        ((loginStep s.net.members c pc).1 m).term = s.net.term := by
      intro m ht
      rcases loginStep_term s.net.members c pc m with hq | ⟨hq, -⟩
      · rw [hq, ht]
      · rw [hq, hc]
    cases hs
    cases hn : (loginStep s.net.members c pc).2 with
    | inr res =>
      obtain ⟨hres, hpc⟩ := loginStep_result hn
      simp only [hres, hc]
      refine h.endLogin hmu hne hlt fun m hu => hkept m ?_
      rcases (hm m hu).2 with ht | ⟨rest, hrest, -⟩
      · exact ht
      · rw [hpc] at hrest
        cases hrest
    | inl pc' =>
      refine ⟨h.bound, h.newest, fun j hj hlo ht => absurd ht (hcur j hj hlo), ?_, fun j hj => absurd hj (hr j),
        h.executed⟩
      refine ⟨hc, hne, hlt, fun m hu => ⟨?_, ?_⟩⟩
      · rcases loginStep_term s.net.members c pc m with hq | ⟨hq, -⟩
        · simp only [hq]
          exact (hm m hu).1
        · exact Or.inr (hq.trans hc)
      · rcases (hm m hu).2 with ht | ⟨rest, hrest, hmem⟩
        · exact Or.inl (hkept m ht)
        · rcases loginStep_toInstall s.net.members hrest hmem with hq | ⟨pc'', rest', hn', hrest', hmem'⟩
          · exact Or.inl (hq.trans hc)
          · rw [hn] at hn'
            cases hn'
            exact Or.inr ⟨rest', hrest', hmem'⟩
  case h_2 => cases hs

lemma ClusterInv.endLogout (h : ClusterInv s) (hmu : s.sessMu = some (k, .logout [])) : ClusterInv (s.endLogout k) := by
  obtain ⟨hr, hcur⟩ := h.held hmu
  have hT := h.terms
  rw [hmu] at hT
  have hbound : ∀ j, ((s.endLogout k).conns j).bound = true →
      (s.conns j).bound = true ∧ (s.endLogout k).conns j = s.conns j := by
    intro j hj
    simp only [ClusterServer.endLogout, Function.update_apply] at hj ⊢
    split_ifs at hj ⊢
    exact ⟨hj, rfl⟩
  refine ⟨fun j hj => ?_, fun j hj hd => ?_, fun j hj hlo ht => ?_, ⟨nofun, fun m hu => ?_⟩,
    fun j hj => absurd hj (hr j), h.executed⟩
  · rw [(hbound j hj).2]
    exact h.bound j (hbound j hj).1
  · rw [(hbound j hj).2]
    exact h.newest j (hbound j hj).1 hd
  · rw [(hbound j hj).2] at ht
    exact absurd ht (hcur j (hbound j hj).1 hlo)
  · exact (hT.2.2.2 m hu).2.resolve_right nofun

omit [DecidableEq κ] in
lemma ClusterInv.visitLogout (h : ClusterInv s) {m : Fin n} {rest : List (Fin n)}
    (hmu : s.sessMu = some (k, .logout (m :: rest))) :
    ClusterInv { s.setMember m (s.net.members m).coldApplyLogout with sessMu := some (k, .logout rest) } := by
  obtain ⟨hr, hcur⟩ := h.held hmu
  have hT := h.terms
  rw [hmu] at hT
  obtain ⟨hl, hk, hne, hm⟩ := hT
  refine ⟨h.bound, h.newest, fun j hj hlo ht => absurd ht (hcur j hj hlo), ⟨hl, hk, hne, fun q hu => ?_⟩,
    fun j hj => absurd hj (hr j), h.executed⟩
  simp only [ClusterServer.setMember, Function.update_apply]
  split_ifs with hq
  · exact ⟨Or.inl rfl, Or.inl rfl⟩
  · refine ⟨(hm q hu).1, (hm q hu).2.imp_right fun hmem => ?_⟩
    exact (List.mem_cons.mp hmem).resolve_left hq

omit [DecidableEq κ] in
lemma ClusterInv.live_of_logout (h : ClusterInv s) {rest : List (Fin n)}
    (hmu : s.sessMu = some (k, .logout rest)) : s.liveTerm = some (s.conns k).connTerm := by
  have hT := h.terms
  rw [hmu] at hT
  rw [hT.1, hT.2.1]

lemma ClusterInv.goLogout (h : ClusterInv s) (hs : clusterStep b s .goLogout = some s') : ClusterInv s' := by
  simp only [clusterStep] at hs
  split at hs
  case h_1 k m rest hmu =>
    cases hs
    exact (h.visitLogout hmu).log (h.live_of_logout hmu)
  case h_2 k hmu =>
    cases hs
    exact (h.log (h.live_of_logout hmu)).endLogout hmu
  case h_3 => cases hs

lemma ClusterInv.step (h : ClusterInv s) {a : ClusterAct κ} (hok : InSession s a)
    (hs : clusterStep b s a = some s') : ClusterInv s' := by
  cases a with
  | login k clientToken => exact h.login hok hs
  | goLogin => exact h.goLogin hs
  | helo k req => exact h.helo hs
  | io k req => exact h.io hs
  | resolve k upto => exact h.resolve hok hs
  | goRound k => exact h.goRound hs
  | logout k => exact h.logout hok hs
  | goLogout => exact h.goLogout hs

end Inv

theorem cluster_fenced [DecidableEq κ] {b : ClusterBackend} {s : ClusterServer κ n} {pageSize : UInt32}
    {up writeAllowed : Fin n → Bool} {leader : Fin n} {port : κ → Fin n}
    (h : Reach (clusterStep b) InSession (.start pageSize up writeAllowed leader port) s) :
    (∀ e ∈ s.executed, e.live = some e.connTerm) ∧
      ∀ k req rsp r, s.onIo b k req = some (rsp, r) → rsp.status ≠ Wire.ok → r = s.net.members (s.port k) := by
  have hi : ClusterInv s := h.invariant ⟨nofun, nofun, nofun, ⟨nofun, fun _ _ => rfl⟩, nofun, nofun⟩
    fun _ _ _ hi hok hs => hi.step hok hs
  exact ⟨hi.executed, fun k req rsp r ho => (ClusterConn.fencesIo_onIo ho).refused⟩

section Runs

def smallCluster : ClusterBackend :=
  ⟨512, 2 ^ 20, 2 ^ 16, nilId, [], true, true, fun _ => .error .timedOut, fun _ _ => .error .timedOut,
    fun _ => .error .timedOut, false, 0⟩

def threeReplicas : ClusterServer (Fin 3) 3 := .start 512 (fun _ => true) (fun _ => true) 0 id

def oneReplica : ClusterServer (Fin 2) 1 := .start 512 (fun _ => true) (fun _ => true) 0 fun _ => 0

theorem cluster_fenced_sessions :
    ∃ s, Reach (clusterStep smallCluster) InSession threeReplicas s ∧
      (s.executed.length = 26 ∧ s.liveTerm = some 2 ∧ (s.net.members 2).lastAppendLsn = 0) ∧
      (∀ e ∈ s.executed, e.live = some e.connTerm) ∧
      ∀ k req rsp r, s.onIo smallCluster k req = some (rsp, r) → rsp.status ≠ Wire.ok →
        r = s.net.members (s.port k) := by
  obtain ⟨s, hr, hp⟩ := Reach.exists_of_exec (clusterStep smallCluster) InSession threeReplicas
    (List.flatten [[.login 0 7], List.replicate 16 .goLogin,
      [.helo 1 ⟨nilId, 7, 1⟩, .io 1 (.write ⟨⟨-1, -1⟩, 0, 0, 512⟩ []), .resolve 0 0], List.replicate 19 (.goRound 0),
      [.logout 0], List.replicate 4 .goLogout, [.login 0 9], List.replicate 16 .goLogin])
    (fun s => s.executed.length = 26 ∧ s.liveTerm = some 2 ∧ (s.net.members 2).lastAppendLsn = 0) (by decide +kernel)
  exact ⟨s, hr, of_decide_eq_true hp, cluster_fenced hr⟩

theorem stale_logout_executed :
    (∃ s, Reach (clusterStep smallCluster) free oneReplica s ∧
      ⟨0, 1, some 2⟩ ∈ s.executed ∧ s.liveTerm = none ∧ (s.conns 1).bound = true) ∧
    ∃ s, Reach (clusterStep smallCluster) free oneReplica s ∧
      ⟨1, 1, none⟩ ∈ s.executed ∧ isRunning (s.net.rounds 1) = true := by
  constructor
  · obtain ⟨s, hr, hp⟩ := Reach.exists_of_exec (clusterStep smallCluster) free oneReplica
      (List.flatten [[.login 0 7], List.replicate 8 .goLogin, [.login 1 9], List.replicate 8 .goLogin, [.logout 0],
        List.replicate 2 .goLogout])
      (fun s => ⟨0, 1, some 2⟩ ∈ s.executed ∧ s.liveTerm = none ∧ (s.conns 1).bound = true) (by decide +kernel)
    exact ⟨s, hr, of_decide_eq_true hp⟩
  · obtain ⟨s, hr, hp⟩ := Reach.exists_of_exec (clusterStep smallCluster) free oneReplica
      (List.flatten [[.login 0 7], List.replicate 8 .goLogin, [.helo 1 ⟨nilId, 7, 1⟩, .logout 0],
        List.replicate 2 .goLogout, [.resolve 1 0]])
      (fun s => ⟨1, 1, none⟩ ∈ s.executed ∧ isRunning (s.net.rounds 1) = true) (by decide +kernel)
    exact ⟨s, hr, of_decide_eq_true hp⟩

end Runs

end CraftClient.Net
