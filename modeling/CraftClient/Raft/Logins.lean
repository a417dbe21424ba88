import CraftClient.Lib.Runs
import CraftClient.Raft.Group

namespace CraftClient.Raft

open Replica Runs

variable {κ : Type} {n : ℕ}

inductive LoginPhase
  | start | collect | sync | clearDone | propose | wait
  deriving DecidableEq

structure LoginCall where
  clientToken : UInt64
  term : UInt64
  rsCommitLsn : ℤ
  phase : LoginPhase
  deriving DecidableEq

def LoginCall.entry (c : LoginCall) : InternalLoginMsg := ⟨c.clientToken, c.term, c.rsCommitLsn⟩

structure LoginOk (κ : Type) where
  conn : κ
  clientToken : UInt64
  term : UInt64
  applied : List InternalLoginMsg
  deriving DecidableEq

/-- `accepted` are the logins that raft has taken and may commit; `applied` and `answered` are history. -/
structure LoginServer (κ : Type) (n : ℕ) where
  replica : RaftReplica
  volume : List (Fin n)
  nextTerm : UInt64
  sessionTerm : UInt64
  sessionActive : Bool
  logins : κ → Option LoginCall
  accepted : List InternalLoginMsg
  applied : List InternalLoginMsg
  answered : List (LoginOk κ)

/-- What raft, the peers and the clients do. The replica changes behind the server under the probes and the writes
of others, and another member of the group may propose a login. -/
inductive LoginServerAct (κ : Type) (n : ℕ)
  | onLogin (k : κ) (clientToken : UInt64)
  | lead (k : κ) (isLeader : Bool) (leaderHint : Option (Fin n))
  | collect (k : κ) (peerResp : List LsnPair)
  | sync (k : κ) (refusal : Option ErrorCond)
  | clearDone (k : κ)
  | propose (k : κ) (refusal : Option ErrorCond)
  | done (k : κ)
  | timeout (k : κ)
  | other (m : InternalLoginMsg)
  | apply (m : InternalLoginMsg)
  | onHelo (clientToken term : UInt64)
  | replica (mem : MemReplica)

namespace LoginServer

variable [DecidableEq κ] (s : LoginServer κ n)

def start (r : RaftReplica) (volume : List (Fin n)) (nextTerm : UInt64) : LoginServer κ n :=
  ⟨r, volume, nextTerm, 0, false, fun _ => none, [], [], []⟩

def setCall (k : κ) (c : LoginCall) : LoginServer κ n := { s with logins := Function.update s.logins k (some c) }

def finish (k : κ) (c : LoginCall) (res : Except ErrorCond (EstablishResult n)) : LoginServer κ n :=
  { s with
    logins := Function.update s.logins k none
    sessionActive := answersOk res
    answered := if answersOk res then ⟨k, c.clientToken, s.sessionTerm, s.applied⟩ :: s.answered else s.answered }

end LoginServer

def loginServerStep [DecidableEq κ] (s : LoginServer κ n) : LoginServerAct κ n → Option (LoginServer κ n)
  | .onLogin k clientToken =>
    if s.logins k = none then
      let term := s.nextTerm + 1
      some { s.setCall k ⟨clientToken, term, -1, .start⟩ with nextTerm := term, sessionTerm := term }
    else none
  | .lead k isLeader leaderHint => do
    let c ← s.logins k
    if c.phase = .start then
      some (if isLeader then s.setCall k { c with phase := .collect } else s.finish k c (.ok (.redirect leaderHint)))
    else none
  | .collect k peerResp => do
    let c ← s.logins k
    if c.phase = .collect then
      let resp := s.replica.mem.peekLsns :: peerResp
      some (if resp.length ≤ s.volume.length / 2 then s.finish k c (.error (.craft .noQuorum))
        else s.setCall k { c with rsCommitLsn := maxLastAppend resp, phase := .sync })
    else none
  | .sync k refusal => do
    let c ← s.logins k
    if c.phase = .sync then
      match refusal with
      | some e => some (s.finish k c (.error e))
      | none => some (s.setCall k { c with phase := .clearDone })
    else none
  | .clearDone k => do
    let c ← s.logins k
    if c.phase = .clearDone then
      some { s.setCall k { c with phase := .propose } with replica := { s.replica with loginDone := false } }
    else none
  | .propose k refusal => do
    let c ← s.logins k
    if c.phase = .propose then
      match refusal with
      | some e => some (s.finish k c (.error e))
      | none => some { s.setCall k { c with phase := .wait } with accepted := c.entry :: s.accepted }
    else none
  | .done k => do
    let c ← s.logins k
    if c.phase = .wait ∧ s.replica.loginDone = true then
      some (s.finish k c (.ok (.established s.volume c.rsCommitLsn)))
    else none
  | .timeout k => do
    let c ← s.logins k
    if c.phase = .wait ∧ s.replica.loginDone = false then some (s.finish k c (.error (.craft .internal))) else none
  | .other m => some { s with accepted := m :: s.accepted }
  | .apply m =>
    if m ∈ s.accepted then
      some { s with
        replica := s.replica.commitLogin m.toJson
        accepted := s.accepted.erase m
        applied := m :: s.applied }
    else none
  | .onHelo clientToken term =>
    some (if term ≠ s.replica.mem.term ∨ clientToken ≠ s.replica.mem.clientToken then s
      else { s with sessionTerm := term, sessionActive := true })
  | .replica mem => some { s with replica := { s.replica with mem := mem } }

def LoginCall.Awaits (c : LoginCall) : Prop := c.phase = .propose ∨ c.phase = .wait

instance (c : LoginCall) : Decidable c.Awaits := inferInstanceAs (Decidable (_ ∨ _))

/-- No session request comes while a LOGIN is in progress, raft names a leader where it is not one, and no login but
its own is applied once a call has lowered the flag. -/
def Orderly (s : LoginServer κ n) : LoginServerAct κ n → Prop
  | .onLogin _ _ | .onHelo _ _ => ∀ k, s.logins k = none
  | .lead _ isLeader leaderHint => isLeader = true ∨ leaderHint ≠ none
  | .apply m => ∀ k, ∀ c ∈ s.logins k, c.Awaits → m.term = c.term ∧ m.clientToken = c.clientToken
  | _ => True

instance [Fintype κ] : ∀ (s : LoginServer κ n) (a : LoginServerAct κ n), Decidable (Orderly s a)
  | _, .onLogin .. | _, .onHelo .. => inferInstanceAs (Decidable (∀ _, _ = _))
  | _, .lead .. => inferInstanceAs (Decidable (_ ∨ _))
  | s, .apply m =>
    have (k : κ) : Decidable (∀ c ∈ s.logins k, c.Awaits → m.term = c.term ∧ m.clientToken = c.clientToken) :=
      match h : s.logins k with
      | none => .isTrue (by simp)
      | some c => decidable_of_iff (c.Awaits → m.term = c.term ∧ m.clientToken = c.clientToken) (by simp)
    inferInstanceAs (Decidable (∀ k, ∀ c ∈ s.logins k, c.Awaits → m.term = c.term ∧ m.clientToken = c.clientToken))
  | _, .collect .. | _, .sync .. | _, .clearDone _ | _, .propose .. | _, .done _ | _, .timeout _ | _, .other _
  | _, .replica _ => .isTrue trivial

def Committed (applied : List InternalLoginMsg) (term clientToken : UInt64) : Prop :=
  ∃ m ∈ applied, m.term = term ∧ m.clientToken = clientToken

structure LoginServerInv (s : LoginServer κ n) : Prop where
  term : ∀ k, ∀ c ∈ s.logins k, c.term = s.sessionTerm
  awaits : ∀ k, ∀ c ∈ s.logins k, c.Awaits → s.replica.loginDone = true → Committed s.applied c.term c.clientToken
  answered : ∀ a ∈ s.answered, Committed a.applied a.term a.clientToken

section Steps

variable [DecidableEq κ] {s s' : LoginServer κ n} {a : LoginServerAct κ n} {k : κ} {c c' : LoginCall}
  {res : Except ErrorCond (EstablishResult n)}

lemma mem_update {f : κ → Option LoginCall} {o : Option LoginCall} {j : κ} (h : c ∈ Function.update f k o j) :
    c ∈ o ∨ c ∈ f j := by
  rw [Function.update_apply] at h
  split_ifs at h
  · exact Or.inl h
  · exact Or.inr h

lemma LoginServerInv.setCall (h : LoginServerInv s) (hc : c ∈ s.logins k) (ht : c'.term = c.term)
    (hk : c'.clientToken = c.clientToken) (ha : c'.Awaits → c.Awaits) : LoginServerInv (s.setCall k c') := by
  constructor
  · intro j d hd
    rcases mem_update hd with hd | hd
    · cases hd
      exact ht.trans (h.term k c hc)
    · exact h.term j d hd
  · intro j d hd hw hf
    rcases mem_update hd with hd | hd
    · cases hd
      rw [ht, hk]
      exact h.awaits k c hc (ha hw) hf
    · exact h.awaits j d hd hw hf
  · exact h.answered

lemma LoginServerInv.finish (h : LoginServerInv s)
    (ho : answersOk res = true → Committed s.applied s.sessionTerm c.clientToken) :
    LoginServerInv (s.finish k c res) := by
  have hm : ∀ j, ∀ d ∈ (s.finish k c res).logins j, d ∈ s.logins j := fun j d hd =>
    (mem_update hd).resolve_left nofun
  refine ⟨fun j d hd => h.term j d (hm j d hd), fun j d hd => h.awaits j d (hm j d hd), ?_⟩
  intro a ha
  simp only [LoginServer.finish] at ha
  split_ifs at ha with hr
  · rcases List.mem_cons.mp ha with rfl | ha
    · exact ho hr
    · exact h.answered a ha
  · exact h.answered a ha

lemma loginDone_clear (h : LoginServerInv s) (hc : c ∈ s.logins k) (ht : c'.term = c.term) :
    LoginServerInv { s.setCall k c' with replica := { s.replica with loginDone := false } } := by
  refine ⟨?_, fun _ _ _ _ hf => (Bool.false_ne_true hf).elim, h.answered⟩
  intro j d hd
  rcases mem_update hd with hd | hd
  · cases hd
    exact ht.trans (h.term k c hc)
  · exact h.term j d hd

lemma loginServerInv_step (h : LoginServerInv s) (hok : Orderly s a) (hs : loginServerStep s a = some s') :
    LoginServerInv s' := by
  cases a with
  | onLogin k clientToken =>
    simp only [loginServerStep] at hs
    split_ifs at hs
    cases hs
    have hnew : ∀ j, ∀ d ∈ Function.update s.logins k (some ⟨clientToken, s.nextTerm + 1, -1, .start⟩) j,
        d = ⟨clientToken, s.nextTerm + 1, -1, .start⟩ := by
      intro j d hd
      rcases mem_update hd with hd | hd
      · exact (Option.some.inj hd).symm
      · rw [hok j] at hd
        cases hd
    constructor
    · intro j d hd
      rw [hnew j d hd]
    · intro j d hd hw
      rw [hnew j d hd] at hw
      cases hw <;> contradiction
    · exact h.answered
  | lead k isLeader leaderHint =>
    obtain ⟨c, hc, hs⟩ := Option.bind_eq_some_iff.mp hs
    split_ifs at hs with hp hl
    · cases hs
      exact h.setCall hc rfl rfl nofun
    · cases hs
      apply h.finish
      intro hr
      cases leaderHint with
      | none => exact absurd (hok.resolve_left hl) (by simp)
      | some m => cases hr
  | collect k peerResp =>
    obtain ⟨c, hc, hs⟩ := Option.bind_eq_some_iff.mp hs
    split_ifs at hs with hp
    cases hs
    split_ifs
    · exact h.finish nofun
    · exact h.setCall hc rfl rfl nofun
  | sync k refusal =>
    obtain ⟨c, hc, hs⟩ := Option.bind_eq_some_iff.mp hs
    split_ifs at hs with hp
    cases refusal with
    | some e =>
      cases hs
      exact h.finish nofun
    | none =>
      cases hs
      exact h.setCall hc rfl rfl nofun
  | clearDone k =>
    obtain ⟨c, hc, hs⟩ := Option.bind_eq_some_iff.mp hs
    split_ifs at hs with hp
    cases hs
    exact loginDone_clear h hc rfl
  | propose k refusal =>
    obtain ⟨c, hc, hs⟩ := Option.bind_eq_some_iff.mp hs
    split_ifs at hs with hp
    cases refusal with
    | some e =>
      cases hs
      exact h.finish nofun
    | none =>
      cases hs
      have hw : LoginServerInv (s.setCall k { c with phase := .wait }) := h.setCall hc rfl rfl fun _ => Or.inl hp
      exact ⟨hw.term, hw.awaits, hw.answered⟩
  | done k =>
    obtain ⟨c, hc, hs⟩ := Option.bind_eq_some_iff.mp hs
    split_ifs at hs with hp
    cases hs
    apply h.finish
    intro _
    rw [← h.term k c hc]
    exact h.awaits k c hc (Or.inr hp.1) hp.2
  | timeout k =>
    obtain ⟨c, hc, hs⟩ := Option.bind_eq_some_iff.mp hs
    split_ifs at hs with hp
    cases hs
    exact h.finish nofun
  | other m =>
    cases hs
    exact ⟨h.term, h.awaits, h.answered⟩
  | apply m =>
    simp only [loginServerStep] at hs
    split_ifs at hs
    cases hs
    refine ⟨h.term, fun k c hc hw _ => ?_, h.answered⟩
    exact ⟨m, List.mem_cons_self, hok k c hc hw⟩
  | onHelo clientToken term =>
    cases hs
    split_ifs
    · exact h
    · exact ⟨fun k c hc => absurd hc (by simp [hok k]), h.awaits, h.answered⟩
  | replica mem =>
    cases hs
    exact ⟨h.term, h.awaits, h.answered⟩

end Steps

theorem ok_login_committed [DecidableEq κ] {s : LoginServer κ n} {r : RaftReplica} {volume : List (Fin n)}
    {nextTerm : UInt64} (h : Reach loginServerStep Orderly (.start r volume nextTerm) s) :
    ∀ a ∈ s.answered, Committed a.applied a.term a.clientToken := by
  have hi : LoginServerInv s :=
    h.invariant ⟨nofun, nofun, nofun⟩ fun _ _ _ hi hok hs => loginServerInv_step hi hok hs
  exact hi.answered

theorem ok_login_committed_once :
    ∃ s : LoginServer (Fin 2) 1, Reach loginServerStep Orderly (.start (.new 512) [0] 0) s ∧
      s.answered = [⟨0, 7, 1, [⟨7, 1, -1⟩]⟩] ∧ s.nextTerm = 3 ∧
      ∀ a ∈ s.answered, Committed a.applied a.term a.clientToken := by
  obtain ⟨s, hr, hp⟩ := Reach.exists_of_exec loginServerStep Orderly
    (.start (.new 512) [0] 0 : LoginServer (Fin 2) 1)
    [.onLogin 0 7, .lead 0 true none, .collect 0 [], .sync 0 none, .clearDone 0, .propose 0 none, .apply ⟨7, 1, -1⟩,
      .done 0, .onHelo 7 1, .onLogin 1 9, .lead 1 false (some 0), .onLogin 0 7, .lead 0 true none, .collect 0 [],
      .sync 0 none, .clearDone 0, .propose 0 none, .timeout 0]
    (fun s => s.answered = [⟨0, 7, 1, [⟨7, 1, -1⟩]⟩] ∧ s.nextTerm = 3) (by decide +kernel)
  obtain ⟨ha, hn⟩ := of_decide_eq_true hp
  exact ⟨s, hr, ha, hn, ok_login_committed hr⟩

theorem ok_login_uncommitted :
    (∃ s : LoginServer (Fin 2) 1, Reach loginServerStep free (.start (.new 512) [0] 0) s ∧
      s.answered = [⟨0, 7, 1, []⟩] ∧ ¬ Committed [] 1 7) ∧
    ∃ s : LoginServer (Fin 2) 1, Reach loginServerStep free (.start (.new 512) [0] 0) s ∧
      s.answered = [⟨0, 7, 2, [⟨7, 1, -1⟩]⟩] ∧ ¬ Committed [⟨7, 1, -1⟩] 2 7 := by
  constructor
  · obtain ⟨s, hr, hp⟩ := Reach.exists_of_exec loginServerStep free
      (.start (.new 512) [0] 0 : LoginServer (Fin 2) 1) [.onLogin 0 7, .lead 0 false none]
      (fun s => s.answered = [⟨0, 7, 1, []⟩]) (by decide +kernel)
    exact ⟨s, hr, of_decide_eq_true hp, by simp [Committed]⟩
  · obtain ⟨s, hr, hp⟩ := Reach.exists_of_exec loginServerStep free
      (.start (.new 512) [0] 0 : LoginServer (Fin 2) 1)
      [.onLogin 0 7, .lead 0 true none, .collect 0 [], .sync 0 none, .clearDone 0, .propose 0 none, .onLogin 1 9,
        .apply ⟨7, 1, -1⟩, .done 0]
      (fun s => s.answered = [⟨0, 7, 2, [⟨7, 1, -1⟩]⟩]) (by decide +kernel)
    exact ⟨s, hr, of_decide_eq_true hp, by simp [Committed]⟩

end CraftClient.Raft
