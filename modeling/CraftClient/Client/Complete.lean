import CraftClient.Client.History

namespace CraftClient.Client

open Replica Router Cluster Tracker Runs

variable {σ κ ρ : Type} {n : ℕ} {c : LoginCall n} {pc : LoginPc n} {m₀ members : Fin n → MemReplica}

structure IsWatermark (members : Fin n → MemReplica) (rs : ℤ) : Prop where
  le : ∀ m, (members m).lastAppendLsn ≤ rs
  mem : rs = -1 ∨ ∃ m, (members m).lastAppendLsn = rs

def LoginTrace (m₀ members : Fin n → MemReplica) : Login n → Prop
  | .running c (.peek rest rs) => (∀ m, m ∈ c.live) ∧ c.live.Nodup ∧ members = m₀ ∧
    (∀ m, m ∈ rest ∨ (m₀ m).lastAppendLsn ≤ rs) ∧ (rs = -1 ∨ ∃ m, (m₀ m).lastAppendLsn = rs)
  | .running _ (.sync rest rs) => IsWatermark m₀ rs ∧ rest.Nodup ∧
    ∀ m, members m = if m ∈ rest then m₀ m else (m₀ m).applyUpTo rs
  | .running _ (.install _ rs) | .running _ (.check _ rs) | .running _ (.truncate _ rs) =>
    IsWatermark m₀ rs ∧ ∀ m, (members m).commitLsn = ((m₀ m).applyUpTo rs).commitLsn
  | .done (.ok res) => IsWatermark m₀ res.dlsn ∧
    ∀ m, (members m).commitLsn = ((m₀ m).applyUpTo res.dlsn).commitLsn
  | .idle | .done (.error _) => True

def LoginPc.next (members : Fin n → MemReplica) (c : LoginCall n) (pc : LoginPc n) : Login n :=
  match (loginStep members c pc).2 with
  | .inl pc' => .running c pc'
  | .inr res => .done (.ok res)

lemma update_commitLsn (m : Fin n) (r : MemReplica) (h : r.commitLsn = (members m).commitLsn) (q : Fin n) :
    (Function.update members m r q).commitLsn = (members q).commitLsn := by
  rw [Function.update_apply]
  split_ifs with hq
  · rw [h, hq]
  · rfl

lemma LoginTrace.step (h : LoginTrace m₀ members (.running c pc)) :
    LoginTrace m₀ (loginStep members c pc).1 (LoginPc.next members c pc) := by
  cases pc with
  | peek rest rs =>
    obtain ⟨hlive, hnd, rfl, hseen, hrs⟩ := h
    cases rest with
    | nil => exact ⟨⟨fun m => (hseen m).resolve_left (by simp), hrs⟩, hnd, fun m => by simp [loginStep, hlive m]⟩
    | cons m rest =>
      refine ⟨hlive, hnd, rfl, ?_, ?_⟩
      · intro q
        obtain hq | hq := hseen q
        · rcases List.mem_cons.mp hq with rfl | hq
          · exact Or.inr (le_max_right _ _)
          · exact Or.inl hq
        · exact Or.inr (hq.trans (le_max_left _ _))
      · rcases max_choice rs (members m).peekLsns.lastAppendLsn with hm | hm
        · rw [hm]
          exact hrs
        · rw [hm]
          exact Or.inr ⟨m, rfl⟩
  | sync rest rs =>
    obtain ⟨hw, hnd, hm⟩ := h
    cases rest with
    | nil => exact ⟨hw, fun m => congrArg MemReplica.commitLsn ((hm m).trans (if_neg (by simp)))⟩
    | cons m rest =>
      obtain ⟨hmr, hnd⟩ := List.nodup_cons.mp hnd
      refine ⟨hw, hnd, fun q => ?_⟩
      change Function.update members m ((members m).coldApplySync rs) q = _
      rcases eq_or_ne q m with rfl | hq
      · rw [Function.update_self, if_neg hmr, hm q, if_pos List.mem_cons_self]
        rfl
      · rw [Function.update_of_ne hq, hm q]
        simp [hq]
  | install rest rs =>
    cases rest with
    | nil => exact h
    | cons m rest =>
      exact ⟨h.1, fun q => (update_commitLsn m ((members m).coldApplyLogin c.clientToken c.term) rfl q).trans (h.2 q)⟩
  | check rest rs =>
    cases rest with
    | nil => exact h
    | cons m rest =>
      simp only [LoginPc.next, loginStep]
      split_ifs <;> exact h
  | truncate rest rs =>
    cases rest with
    | nil => exact h
    | cons m rest =>
      exact ⟨h.1, fun q => (update_commitLsn m ((members m).coldTruncateAbove rs) rfl q).trans (h.2 q)⟩

section Theorem

variable [DecidableEq σ] [DecidableEq κ] {s s₁ s₂ : History σ κ ρ n} {k : κ} {caller : Fin n}
  {clientToken : UInt64} {res : LoginResult n}

def Alone (k : κ) (_ : History σ κ ρ n) : HistAct σ κ n → Prop
  | .goLogin j => j = k
  | _ => False

def CompleteAt (net : MemTransport ρ n) (m : Fin n) : Prop :=
  ∀ d, (net.members m).commitLsn < d → (∃ m', d ≤ (net.members m').lastAppendLsn) →
    ((net.members m).journal.find d).isSome

lemma loginTrace_start (hup : ∀ m, s.net.up m)
    (h : histStep s (.login k caller clientToken) = some s₁) :
    s₁.net.up = s.net.up ∧ (LoginTrace s.net.members s₁.net.members (s₁.logins k) ∨
      ∃ r, s₁.logins k = .done r ∧ ∀ res, r = .ok res → res.dlsn < 0) := by
  simp only [histStep] at h
  split at h
  · obtain ⟨r, he, -, hr⟩ | ⟨-, -, -, he⟩ := s.net.startLogin_cases caller clientToken
    · rw [he] at h
      cases h
      exact ⟨rfl, Or.inr ⟨r, Function.update_self .., fun res hres => by rw [hr res hres]; decide⟩⟩
    · rw [he] at h
      cases h
      refine ⟨rfl, Or.inl ?_⟩
      simp only [History.setLogin, Function.update_self]
      have hlive : ∀ m, m ∈ s.net.live := fun m => MemTransport.mem_live.mpr (hup m)
      exact ⟨hlive, s.net.nodup_live, rfl, fun m => Or.inl (hlive m), Or.inl rfl⟩
  · cases h

lemma loginTrace_goLogin {t : History σ κ ρ n} (h : LoginTrace m₀ s.net.members (s.logins k))
    (hs : histStep s (.goLogin k) = some t) : LoginTrace m₀ t.net.members (t.logins k) := by
  obtain ⟨⟨l, net⟩, hg, rfl⟩ := Option.map_eq_some_iff.mp hs
  obtain ⟨c, pc, hk, rfl, rfl⟩ := goLogin_eq_some hg
  rw [hk] at h
  simp only [History.setLogin, Function.update_self]
  exact h.step

theorem login_complete_iff (hup : ∀ m, s.net.up m)
    (h₁ : histStep s (.login k caller clientToken) = some s₁) (h₂ : Reach histStep (Alone k) s₁ s₂)
    (hd : s₂.logins k = .done (.ok res)) (hL : 0 ≤ res.dlsn) :
    (∃ m, s₂.net.up m ∧ res.dlsn ≤ (s₂.net.members m).commitLsn) ↔ ∃ m, CompleteAt s.net m := by
  obtain ⟨hup₁, hstart⟩ := loginTrace_start hup h₁
  have hinv : s₂.net.up = s.net.up ∧ (LoginTrace s.net.members s₂.net.members (s₂.logins k) ∨
      ∃ r, s₂.logins k = .done r ∧ ∀ res, r = .ok res → res.dlsn < 0) := by
    refine h₂.invariant (P := fun t => t.net.up = s.net.up ∧
      (LoginTrace s.net.members t.net.members (t.logins k) ∨
        ∃ r, t.logins k = .done r ∧ ∀ res, r = .ok res → res.dlsn < 0)) ⟨hup₁, hstart⟩ ?_
    rintro t a u ⟨hu, ht⟩ hok hs
    cases a with
    | goLogin j => ?_
    | _ => exact hok.elim
    obtain rfl : j = k := hok
    obtain ⟨⟨l, net⟩, hg, rfl⟩ := Option.map_eq_some_iff.mp hs
    obtain ⟨c, pc, hk, rfl, rfl⟩ := goLogin_eq_some hg
    refine ⟨hu, Or.inl (loginTrace_goLogin (ht.resolve_right ?_) hs)⟩
    rintro ⟨r, hr, -⟩
    cases hk.symm.trans hr
  obtain ⟨hup₂, htrace | ⟨r, hr, hneg⟩⟩ := hinv
  · rw [hd] at htrace
    obtain ⟨hw, hc⟩ := htrace
    have hiff : ∀ m, res.dlsn ≤ (s₂.net.members m).commitLsn ↔ CompleteAt s.net m := by
      intro m
      rw [hc m, MemReplica.le_applyUpTo_iff]
      constructor
      · rintro h d hd ⟨m', hm'⟩
        exact h d hd (hm'.trans (hw.le m'))
      · intro h d hd hle
        obtain hneg | ⟨m', hm'⟩ := hw.mem
        · omega
        · exact h d hd ⟨m', hle.trans hm'.ge⟩
    constructor
    · rintro ⟨m, -, hm⟩
      exact ⟨m, (hiff m).mp hm⟩
    · rintro ⟨m, hm⟩
      exact ⟨m, by rw [hup₂]; exact hup m, (hiff m).mpr hm⟩
  · cases hd.symm.trans hr
    exact absurd (hneg res rfl) (not_lt.mpr hL)

end Theorem

section Runs

abbrev ThreeHist := History (Fin 1) (Fin 2) Unit 3

abbrev ThreeAct := HistAct (Fin 1) (Fin 2) 3

def loginRun (k : Fin 2) : List ThreeAct := .login k 0 7 :: List.replicate 16 (.goLogin k)

def refusedBy (d : ℤ) (m : Fin 3) : List ThreeAct := [.leg 0 d m .memDown]

def ackedBy (d : ℤ) (m : Fin 3) : List ThreeAct := [.leg 0 d m .send, .deliver 0 d m, .leg 0 d m .memReply]

def writeRun (d : ℤ) (legs : ℤ → Fin 3 → List ThreeAct) : List ThreeAct :=
  .write 0 0 4096 none :: legs d 0 ++ legs d 1 ++ legs d 2 ++ [.resolve 0 d, .advance 0]

def logoutRun : List ThreeAct := [.logout 0 0 0, .goLogout 0, .goLogout 0, .goLogout 0]

instance (k : κ) [DecidableEq κ] (s : History σ κ ρ n) (a : HistAct σ κ n) : Decidable (Alone k s a) := by
  unfold Alone
  split <;> infer_instance

def loginTest (p : LoginResult 3 → ThreeHist → Bool) (s : ThreeHist) : Bool :=
  decide (∀ m, s.net.up m) && (histStep s (.login 1 0 8)).any fun s₁ =>
    (exec histStep (Alone 1) s₁ (List.replicate 16 (.goLogin 1))).any fun s₂ =>
      match s₂.logins 1 with
      | .done (.ok res) => 0 ≤ res.dlsn && p res s₂
      | _ => false

lemma of_loginTest {p : LoginResult 3 → ThreeHist → Bool} {s : ThreeHist} (h : loginTest p s = true) :
    (∀ m, s.net.up m) ∧ ∃ s₁ s₂ res, histStep s (.login 1 0 8) = some s₁ ∧
      Reach histStep (Alone 1) s₁ s₂ ∧ s₂.logins 1 = .done (.ok res) ∧ 0 ≤ res.dlsn ∧ p res s₂ = true := by
  obtain ⟨hup, h⟩ := Bool.and_eq_true_iff.mp h
  obtain ⟨s₁, hs₁, h⟩ := (Option.any_eq_true _ _).mp h
  obtain ⟨s₂, hs₂, h⟩ := (Option.any_eq_true _ _).mp h
  refine ⟨of_decide_eq_true hup, s₁, s₂, ?_⟩
  split at h
  · rename_i res hres
    obtain ⟨hL, hp⟩ := Bool.and_eq_true_iff.mp h
    exact ⟨res, hs₁, .of_exec _ hs₂, hres, of_decide_eq_true hL, hp⟩
  · cases h

theorem login_complete_firstWrite :
    ∃ s s₁ s₂ : ThreeHist, ∃ res, Reach histStep free (.new 4096) s ∧
      histStep s (.login 1 0 8) = some s₁ ∧ Reach histStep (Alone 1) s₁ s₂ ∧
      s₂.logins 1 = .done (.ok res) ∧ 0 ≤ res.dlsn ∧
      ((∃ m, s₂.net.up m ∧ res.dlsn ≤ (s₂.net.members m).commitLsn) ↔ ∃ m, CompleteAt s.net m) := by
  obtain ⟨s, hs, ht⟩ := Reach.exists_of_exec histStep free (.new 4096 : ThreeHist)
    (loginRun 0 ++ [.opens 0 0 7] ++ writeRun 0 ackedBy ++ logoutRun)
    (loginTest fun res _ => res.dlsn = 0) (by decide +kernel)
  obtain ⟨hup, s₁, s₂, res, h₁, h₂, hd, hL, -⟩ := of_loginTest ht
  exact ⟨s, s₁, s₂, res, hs, h₁, h₂, hd, hL, login_complete_iff hup h₁ h₂ hd hL⟩

theorem login_without_complete_member :
    ∃ s s₁ s₂ : ThreeHist, ∃ res, Reach histStep free (.new 4096) s ∧ (∀ m, s.net.up m) ∧
      histStep s (.login 1 0 8) = some s₁ ∧ Reach histStep (Alone 1) s₁ s₂ ∧
      s₂.logins 1 = .done (.ok res) ∧ 0 ≤ res.dlsn ∧ res.term ≠ 0 ∧
      ∀ m, s₂.net.up m ∧ (s₂.net.members m).commitLsn < res.dlsn := by
  obtain ⟨s, hs, ht⟩ := Reach.exists_of_exec histStep free (.new 4096 : ThreeHist)
    (loginRun 0 ++ [.opens 0 0 7] ++ writeRun 0 refusedBy ++ writeRun 1 ackedBy ++ logoutRun)
    (loginTest fun res s₂ => res.term ≠ 0 &&
      decide (∀ m, s₂.net.up m ∧ (s₂.net.members m).commitLsn < res.dlsn)) (by decide +kernel)
  obtain ⟨hup, s₁, s₂, res, h₁, h₂, hd, hL, hp⟩ := of_loginTest ht
  obtain ⟨hterm, hbehind⟩ := Bool.and_eq_true_iff.mp hp
  exact ⟨s, s₁, s₂, res, hs, hup, h₁, h₂, hd, hL, of_decide_eq_true hterm, of_decide_eq_true hbehind⟩

end Runs

end CraftClient.Client
