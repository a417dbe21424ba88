import CraftClient.Cluster.Login
import CraftClient.Replica.Journal

namespace CraftClient.Cluster

open Replica Router Runs

variable {κ ρ : Type} {n : ℕ} {s t : LoginSys κ ρ n} {members : Fin n → MemReplica} {c : LoginCall n}
  {pc : LoginPc n} {k : κ}

def LoginPc.toInstall (c : LoginCall n) : LoginPc n → Option (List (Fin n))
  | .peek _ _ | .sync _ _ => some c.live
  | .install rest _ => some rest
  | .check _ _ | .truncate _ _ => none

def Login.toInstall : Login n → Option (List (Fin n))
  | .running c pc => pc.toInstall c
  | _ => none

lemma Login.toInstall_of_not_running {l : Login n} (h : ¬ l.isRunning) : l.toInstall = none := by
  cases l with
  | running c pc => exact absurd rfl h
  | idle | done => rfl

/-- A login that takes a term takes it when every earlier one has installed its own, and the counter does not wrap. -/
def InTurn (s : LoginSys κ ρ n) : LoginAct κ n → Prop
  | .start _ caller clientToken => (s.net.startLogin caller clientToken).1.isRunning →
      (∀ k, (s.logins k).toInstall = none) ∧ s.net.term < s.net.term + 1
  | _ => True

def LoginSys.session (s : LoginSys κ ρ n) (t : UInt64) : Finset (Fin n) :=
  Finset.univ.filter fun m => (s.net.members m).term = t

def LoginSys.term (s : LoginSys κ ρ n) (m : Fin n) : UInt64 := (s.net.members m).term

def LoginSys.Returned (s : LoginSys κ ρ n) : Prop := ∀ k, ¬ (s.logins k).isRunning

section LoginStep

variable {q : Fin n} {rest : List (Fin n)}

lemma loginStep_term (members : Fin n → MemReplica) (c : LoginCall n) (pc : LoginPc n) (q : Fin n) :
    ((loginStep members c pc).1 q).term = (members q).term ∨
      ((loginStep members c pc).1 q).term = c.term ∧ ∃ rest rs, pc = .install (q :: rest) rs := by
  cases pc with
  | peek rest rs => cases rest <;> exact Or.inl rfl
  | sync rest rs =>
    cases rest with
    | nil => exact Or.inl rfl
    | cons m rest =>
      left
      simp only [loginStep, Function.update_apply]
      split_ifs with hq
      · rw [hq]
        exact MemReplica.applyUpTo_term _ _
      · rfl
  | install rest rs =>
    cases rest with
    | nil => exact Or.inl rfl
    | cons m rest =>
      simp only [loginStep, Function.update_apply]
      split_ifs with hq
      · exact Or.inr ⟨rfl, rest, rs, by rw [hq]⟩
      · exact Or.inl rfl
  | check rest rs => cases rest <;> exact Or.inl rfl
  | truncate rest rs =>
    cases rest with
    | nil => exact Or.inl rfl
    | cons m rest =>
      left
      simp only [loginStep, Function.update_apply]
      split_ifs with hq
      · rw [hq]
        rfl
      · rfl

lemma loginStep_toInstall (members : Fin n → MemReplica) (hr : pc.toInstall c = some rest) (hq : q ∈ rest) :
    ((loginStep members c pc).1 q).term = c.term ∨
      ∃ pc' rest', (loginStep members c pc).2 = .inl pc' ∧ pc'.toInstall c = some rest' ∧ q ∈ rest' := by
  cases pc with
  | peek l rs =>
    cases hr
    cases l <;> exact Or.inr ⟨_, _, rfl, rfl, hq⟩
  | sync l rs =>
    cases hr
    cases l <;> exact Or.inr ⟨_, _, rfl, rfl, hq⟩
  | install l rs =>
    obtain rfl : l = rest := Option.some.inj hr
    cases l with
    | nil => cases hq
    | cons m l =>
      rcases List.mem_cons.mp hq with rfl | hq
      · left
        simp [loginStep, MemReplica.coldApplyLogin]
      · exact Or.inr ⟨_, _, rfl, rfl, hq⟩
  | check l rs => cases hr
  | truncate l rs => cases hr

lemma toInstall_of_loginStep {pc' : LoginPc n} (h : (loginStep members c pc).2 = .inl pc')
    (hr : pc.toInstall c = none) : pc'.toInstall c = none := by
  cases pc with
  | peek l rs => cases hr
  | sync l rs => cases hr
  | install l rs => cases hr
  | check l rs =>
    cases l with
    | nil => cases h
    | cons m l =>
      simp only [loginStep, Sum.inl.injEq] at h
      split_ifs at h <;> exact h ▸ rfl
  | truncate l rs =>
    cases l <;> exact Sum.inl.inj h ▸ rfl

end LoginStep

structure TermInv (t₀ : UInt64) (s : LoginSys κ ρ n) : Prop where
  le : ∀ m, s.term m ≤ s.net.term
  steady : ∀ m, s.steady m → s.net.up m
  current : ∀ k c pc, s.logins k = .running c pc → pc.toInstall c ≠ none → c.term = s.net.term
  covered : s.net.term = t₀ ∨ ∃ live : List (Fin n), live.Nodup ∧ quorum n ≤ live.length ∧
    (∀ m, s.steady m → m ∈ live) ∧
    ∀ m ∈ live, s.term m = s.net.term ∨ ∃ k rest, (s.logins k).toInstall = some rest ∧ m ∈ rest

variable [DecidableEq κ] {t₀ : UInt64}

lemma TermInv.started (h : TermInv t₀ s) (hn : ∀ k, (s.logins k).toInstall = none)
    (hlt : s.net.term < s.net.term + 1) (hq : quorum n ≤ s.net.live.length) (k : κ) (clientToken : UInt64) :
    TermInv t₀ { s with
      net := { s.net with term := s.net.term + 1 }
      logins := Function.update s.logins k
        (.running ⟨clientToken, s.net.term + 1, s.net.live⟩ (.peek s.net.live (-1))) } where
  le m := UInt64.le_trans (h.le m) (UInt64.le_of_lt hlt)
  steady := h.steady
  current j c pc hj hp := by
    rcases eq_or_ne j k with rfl | hjk
    · simp only [Function.update_self, Login.running.injEq] at hj
      rw [← hj.1]
    · simp only [Function.update_of_ne hjk] at hj
      have hnone := hn j
      rw [hj] at hnone
      exact absurd hnone hp
  covered := by
    refine Or.inr ⟨s.net.live, s.net.nodup_live, hq, ?_, ?_⟩
    · intro m hm
      exact MemTransport.mem_live.mpr (h.steady m hm)
    · intro m hm
      exact Or.inr ⟨k, s.net.live, by simp [Login.toInstall, LoginPc.toInstall], hm⟩

lemma TermInv.setDone (h : TermInv t₀ s) (hk : (s.logins k).toInstall = none)
    (res : Except ErrorCond (LoginResult n)) :
    TermInv t₀ { s with logins := Function.update s.logins k (.done res) } where
  le := h.le
  steady := h.steady
  current j c pc hj hp := by
    rcases eq_or_ne j k with rfl | hjk
    · simp at hj
    · simp only [Function.update_of_ne hjk] at hj
      exact h.current j c pc hj hp
  covered := by
    refine h.covered.imp_right ?_
    rintro ⟨live, hnd, hq, hst, hl⟩
    refine ⟨live, hnd, hq, hst, fun m hm => (hl m hm).imp_right ?_⟩
    rintro ⟨j, rest, hj, hr⟩
    have hjk : j ≠ k := by
      rintro rfl
      rw [hk] at hj
      cases hj
    exact ⟨j, rest, by simp only [Function.update_of_ne hjk, hj], hr⟩

lemma TermInv.go (h : TermInv t₀ s) (hk : s.logins k = .running c pc) :
    TermInv t₀ { s with
      net := { s.net with members := (loginStep s.net.members c pc).1 }
      logins := Function.update s.logins k (match (loginStep s.net.members c pc).2 with
        | .inl pc' => .running c pc'
        | .inr res => .done (.ok res)) } := by
  have hcur : ∀ m rest rs, pc = .install (m :: rest) rs → c.term = s.net.term := by
    rintro m rest rs rfl
    exact h.current k c _ hk (by simp [LoginPc.toInstall])
  constructor
  · intro m
    obtain hm | ⟨hm, rest, rs, hp⟩ := loginStep_term s.net.members c pc m
    · exact UInt64.le_trans (UInt64.le_of_eq hm) (h.le m)
    · exact UInt64.le_of_eq (hm.trans (hcur m rest rs hp))
  · exact h.steady
  · intro j c' pc' hj hp
    rcases eq_or_ne j k with rfl | hjk
    · simp only [Function.update_self] at hj
      split at hj
      · rename_i pc'' hn
        cases hj
        exact h.current j c pc hk fun hnone => hp (toInstall_of_loginStep hn hnone)
      · cases hj
    · simp only [Function.update_of_ne hjk] at hj
      exact h.current j c' pc' hj hp
  · refine h.covered.imp_right ?_
    rintro ⟨live, hnd, hq, hst, hl⟩
    refine ⟨live, hnd, hq, hst, fun m hm => ?_⟩
    obtain hm | ⟨j, rest, hj, hr⟩ := hl m hm
    · left
      obtain ht | ⟨ht, rest, rs, hp⟩ := loginStep_term s.net.members c pc m
      · exact ht.trans hm
      · exact ht.trans (hcur m rest rs hp)
    · rcases eq_or_ne j k with rfl | hjk
      · rw [hk] at hj
        have hct := h.current j c pc hk (by
          change pc.toInstall c = some rest at hj
          rw [hj]
          exact Option.some_ne_none _)
        obtain ht | ⟨pc', rest', hn, hr', hm'⟩ := loginStep_toInstall s.net.members hj hr
        · exact Or.inl (ht.trans hct)
        · exact Or.inr ⟨j, rest', by simp only [Function.update_self, hn]; exact hr', hm'⟩
      · exact Or.inr ⟨j, rest, by simp only [Function.update_of_ne hjk, hj], hr⟩

omit [DecidableEq κ] in
lemma TermInv.setUp (h : TermInv t₀ s) (m : Fin n) (up : Bool) :
    TermInv t₀ { s with
      net := { s.net with up := Function.update s.net.up m up }
      steady := Function.update s.steady m (s.steady m && up) } := by
  have hsub : ∀ q, Function.update s.steady m (s.steady m && up) q = true → s.steady q = true := by
    intro q hq
    rw [Function.update_apply] at hq
    split_ifs at hq with hqm
    · rw [hqm]
      exact (Bool.and_eq_true_iff.mp hq).1
    · exact hq
  constructor
  · exact h.le
  · intro q hq
    change Function.update s.net.up m up q = true
    rw [Function.update_apply]
    split_ifs with hqm
    · subst hqm
      simp only [Function.update_self, Bool.and_eq_true] at hq
      exact hq.2
    · exact h.steady q (hsub q hq)
  · exact h.current
  · refine h.covered.imp_right ?_
    rintro ⟨live, hnd, hq, hst, hl⟩
    exact ⟨live, hnd, hq, fun q hq => hst q (hsub q hq), hl⟩

lemma TermInv.step (h : TermInv t₀ s) {a : LoginAct κ n} (hok : InTurn s a) (hs : loginSysStep s a = some t) :
    TermInv t₀ t := by
  cases a with
  | start k caller clientToken =>
    simp only [loginSysStep] at hs
    split_ifs at hs with hr
    obtain ⟨res, he, -⟩ | ⟨-, -, hq, he⟩ := s.net.startLogin_cases caller clientToken
    · rw [he] at hs
      cases hs
      exact h.setDone (Login.toInstall_of_not_running hr) res
    · have hturn := hok (by rw [he]; rfl)
      rw [he] at hs
      cases hs
      exact h.started hturn.1 hturn.2 hq k clientToken
  | go k =>
    obtain ⟨⟨l, net⟩, hg, rfl⟩ := Option.map_eq_some_iff.mp hs
    obtain ⟨c, pc, hk, rfl, rfl⟩ := goLogin_eq_some hg
    exact h.go hk
  | setUp m up =>
    cases hs
    exact h.setUp m up
  | setLeader m =>
    cases hs
    exact { h with }

omit [DecidableEq κ] in
lemma termInv_start (net : MemTransport ρ n) (hle : ∀ m, (net.members m).term ≤ net.term) :
    TermInv net.term (LoginSys.start net : LoginSys κ ρ n) where
  le := hle
  steady _ hm := hm
  current _ _ _ hk := by cases hk
  covered := Or.inl rfl

lemma TermInv.term_mono (h : TermInv t₀ s) {a : LoginAct κ n} (hs : loginSysStep s a = some t) (m : Fin n) :
    s.term m ≤ t.term m := by
  cases a with
  | start k caller clientToken =>
    simp only [loginSysStep] at hs
    split_ifs at hs with hr
    obtain ⟨res, he, -⟩ | ⟨-, -, hq, he⟩ := s.net.startLogin_cases caller clientToken
    · rw [he] at hs
      cases hs
      exact UInt64.le_refl _
    · rw [he] at hs
      cases hs
      exact UInt64.le_refl _
  | go k =>
    obtain ⟨⟨l, net⟩, hg, rfl⟩ := Option.map_eq_some_iff.mp hs
    obtain ⟨c, pc, hk, rfl, rfl⟩ := goLogin_eq_some hg
    obtain hm | ⟨hm, rest, rs, rfl⟩ := loginStep_term s.net.members c pc m
    · exact UInt64.le_of_eq hm.symm
    · have hc := h.current k c _ hk (by simp [LoginPc.toInstall])
      exact UInt64.le_trans (h.le m) (UInt64.le_of_eq (hm.trans hc).symm)
  | setUp m' up =>
    cases hs
    exact UInt64.le_refl _
  | setLeader m' =>
    cases hs
    exact UInt64.le_refl _

omit [DecidableEq κ] in
lemma LoginSys.card_session_add (s : LoginSys κ ρ n) {t u : UInt64} (htu : t ≠ u) :
    (s.session t).card + (s.session u).card ≤ n := by
  have hd : Disjoint (s.session t) (s.session u) := by
    rw [Finset.disjoint_left]
    intro m ht hu
    exact htu ((Finset.mem_filter.mp ht).2.symm.trans (Finset.mem_filter.mp hu).2)
  rw [← Finset.card_union_of_disjoint hd]
  exact (Finset.card_le_univ _).trans_eq (Fintype.card_fin n)

/-- `t₀` is the last term that was taken before the logins. -/
structure SingleWriter (t₀ : UInt64) (s : LoginSys κ ρ n) : Prop where
  monotone : ∀ a t, InTurn s a → loginSysStep s a = some t → ∀ m, s.term m ≤ t.term m
  highest : s.Returned → s.net.term ≠ t₀ → ∀ m, s.steady m → s.term m = s.net.term
  apart : ∀ t u, t ≠ u → ¬ (quorum n ≤ (s.session t).card ∧ quorum n ≤ (s.session u).card)
  older : s.Returned → s.net.term ≠ t₀ → ∀ t, t ≠ s.net.term → (s.session t).card < quorum n

omit [DecidableEq κ] in
lemma TermInv.of_returned (h : TermInv t₀ s) (hr : s.Returned) (hne : s.net.term ≠ t₀) :
    ∃ live : List (Fin n), live.Nodup ∧ quorum n ≤ live.length ∧ (∀ m, s.steady m → m ∈ live) ∧
      ∀ m ∈ live, s.term m = s.net.term := by
  obtain ⟨live, hnd, hq, hst, hl⟩ := h.covered.resolve_left hne
  refine ⟨live, hnd, hq, hst, fun m hm => (hl m hm).resolve_right ?_⟩
  rintro ⟨k, rest, hk, -⟩
  rw [Login.toInstall_of_not_running (hr k)] at hk
  cases hk

theorem singleWriter_of_inTurn (net : MemTransport ρ n) (hle : ∀ m, (net.members m).term ≤ net.term)
    (h : Reach loginSysStep InTurn (LoginSys.start net : LoginSys κ ρ n) s) : SingleWriter net.term s := by
  have hinv : TermInv net.term s :=
    h.invariant (termInv_start net hle) fun _ _ _ hi hok hs => hi.step hok hs
  constructor
  · intro a t _ hs
    exact hinv.term_mono hs
  · intro hr hne m hm
    obtain ⟨live, -, -, hst, hl⟩ := hinv.of_returned hr hne
    exact hl m (hst m hm)
  · rintro t u htu ⟨ht, hu⟩
    have hadd := s.card_session_add htu
    unfold quorum at ht hu
    omega
  · intro hr hne t ht
    obtain ⟨live, hnd, hq, -, hl⟩ := hinv.of_returned hr hne
    have hsub : live.toFinset ⊆ s.session s.net.term := by
      intro m hm
      exact Finset.mem_filter.mpr ⟨Finset.mem_univ m, hl m (List.mem_toFinset.mp hm)⟩
    have hcard := Finset.card_le_card hsub
    rw [List.toFinset_card_of_nodup hnd] at hcard
    have hadd := s.card_session_add ht
    unfold quorum at hq ⊢
    omega

section Runs

instance [Fintype κ] (s : LoginSys κ ρ n) (a : LoginAct κ n) : Decidable (InTurn s a) :=
  match a with
  | .start _ _ _ => inferInstanceAs (Decidable (_ → _ ∧ _))
  | .go _ | .setUp _ _ | .setLeader _ => .isTrue trivial

instance [Fintype κ] (s : LoginSys κ ρ n) : Decidable s.Returned := inferInstanceAs (Decidable (∀ _, _))

def threeMembers : MemTransport Unit 3 := .firstLogin 4096 7

def phases (k : Fin 2) : List (LoginAct (Fin 2) 3) := List.replicate 16 (.go k)

def returnedAt (term : UInt64) (s : LoginSys (Fin 2) Unit 3) : Bool :=
  decide s.Returned && (s.net.term = 3 && decide (∀ m, s.steady m ∧ s.term m = term))

lemma exists_returned {ok : LoginSys (Fin 2) Unit 3 → LoginAct (Fin 2) 3 → Prop} {term : UInt64}
    (h : ∃ s, Reach loginSysStep ok (.start threeMembers) s ∧ returnedAt term s = true) :
    ∃ s, Reach loginSysStep ok (.start threeMembers) s ∧ s.Returned ∧ s.net.term = 3 ∧
      ∀ m, s.steady m ∧ s.term m = term := by
  obtain ⟨s, hs, hr⟩ := h
  simp only [returnedAt, Bool.and_eq_true, decide_eq_true_eq] at hr
  exact ⟨s, hs, hr⟩

theorem singleWriter_secondLogin :
    ∃ s : LoginSys (Fin 2) Unit 3, Reach loginSysStep InTurn (.start threeMembers) s ∧ s.Returned ∧
      s.net.term = 3 ∧ SingleWriter threeMembers.term s := by
  obtain ⟨s, hs, hr, ht, -⟩ := exists_returned (Reach.exists_of_exec loginSysStep InTurn (.start threeMembers)
    (.start 0 0 8 :: .start 1 2 9 :: List.replicate 12 (.go 0) ++ .start 1 0 9 :: phases 1 ++ List.replicate 4 (.go 0))
    (returnedAt 3) (by decide +kernel))
  exact ⟨s, hs, hr, ht, singleWriter_of_inTurn threeMembers (by decide +kernel) hs⟩

theorem older_login_wins :
    ∃ s : LoginSys (Fin 2) Unit 3, Reach loginSysStep free (.start threeMembers) s ∧ s.Returned ∧
      s.net.term = 3 ∧ ∀ m, s.steady m ∧ s.term m = 2 :=
  exists_returned (Reach.exists_of_exec loginSysStep free (.start threeMembers)
    (.start 0 0 8 :: .start 1 0 9 :: phases 1 ++ phases 0) (returnedAt 2) (by decide +kernel))

end Runs

end CraftClient.Cluster
