import CraftClient.Raft.StateMachine
import CraftClient.Raft.Watchdog
import CraftClient.Replica.Model

/-! `RaftReplica`: a replica that takes part in the logins of its raft group. -/

namespace CraftClient.Raft

open Replica

structure Restore where
  currentTerm : UInt64
  term : UInt64
  deriving DecidableEq, Repr

structure RaftReplica where
  mem : MemReplica
  rsCommitLsn : ℤ
  loginDone : Bool
  pendingLoginTimer : Option ℕ
  watchdog : Watchdog Restore

def loginWaitTime : ℕ := 2

namespace RaftReplica

variable (r : RaftReplica)

def new (pageSize : UInt32) : RaftReplica := ⟨.new pageSize, -1, false, none, .new⟩

def setTerm (term : UInt64) : RaftReplica := { r with mem := { r.mem with term := term } }

def cancelPending : RaftReplica :=
  match r.pendingLoginTimer with
  | some id => { r with watchdog := r.watchdog.cancel id }
  | none => r

def quiesce (term : UInt64) : RaftReplica := (r.setTerm term).cancelPending

def armBarrier (now : ℕ) (cb : Restore) : ℕ × RaftReplica :=
  let (id, watchdog) := r.watchdog.addOneshot now (2 * loginWaitTime) cb
  (id, { r with watchdog := watchdog })

def restore (cb : Restore) : RaftReplica := if r.mem.term = cb.term then r.setTerm cb.currentTerm else r

def installLogin (m : InternalLoginMsg) : RaftReplica :=
  { ({ r with mem := r.mem.coldApplyLogin m.clientToken m.term } : RaftReplica).cancelPending with
    pendingLoginTimer := none }

def internalLogin (m : InternalLoginMsg) : RaftReplica :=
  let r' := r.installLogin m
  { (if 0 ≤ m.rsCommitLsn then { r' with mem := r'.mem.coldTruncateAbove m.rsCommitLsn } else r') with
    loginDone := true }

def commitLogin (j : Json) : RaftReplica :=
  match decodeEntry j with
  | .ok (.login m) => r.internalLogin m
  | _ => r

lemma restore_term (cb : Restore) :
    (r.restore cb).mem.term = if r.mem.term = cb.term then cb.currentTerm else r.mem.term := by
  rw [restore]
  split_ifs <;> rfl

@[simp] lemma restore_watchdog (cb : Restore) : (r.restore cb).watchdog = r.watchdog := by
  rw [restore]
  split_ifs <;> rfl

@[simp] lemma restore_pending (cb : Restore) :
    (r.restore cb).pendingLoginTimer = r.pendingLoginTimer := by
  rw [restore]
  split_ifs <;> rfl

@[simp] lemma cancelPending_mem : r.cancelPending.mem = r.mem := by
  rw [cancelPending]
  split <;> rfl

lemma cancelPending_timers (id : ℕ) : r.cancelPending.watchdog.timers id =
    if r.pendingLoginTimer = some id then none else r.watchdog.timers id := by
  cases h : r.pendingLoginTimer with
  | none => simp [cancelPending, h]
  | some p => simp [cancelPending, h, Watchdog.cancel, Function.update_apply, eq_comm]

@[simp] lemma cancelPending_nextId : r.cancelPending.watchdog.nextId = r.watchdog.nextId := by
  rw [cancelPending]
  split <;> rfl

@[simp] lemma cancelPending_worker : r.cancelPending.watchdog.worker = r.watchdog.worker := by
  rw [cancelPending]
  split <;> rfl

@[simp] lemma installLogin_mem (m : InternalLoginMsg) :
    (r.installLogin m).mem = r.mem.coldApplyLogin m.clientToken m.term := by
  simp [installLogin]

lemma internalLogin_watchdog (m : InternalLoginMsg) :
    (r.internalLogin m).watchdog = r.cancelPending.watchdog := by
  cases hp : r.pendingLoginTimer with
  | none => by_cases hm : 0 ≤ m.rsCommitLsn <;> simp [internalLogin, installLogin, cancelPending, hp, hm]
  | some id => by_cases hm : 0 ≤ m.rsCommitLsn <;> simp [internalLogin, installLogin, cancelPending, hp, hm]

@[simp] lemma internalLogin_term (m : InternalLoginMsg) : (r.internalLogin m).mem.term = m.term := by
  by_cases hm : 0 ≤ m.rsCommitLsn <;>
    simp [internalLogin, hm, MemReplica.coldTruncateAbove, MemReplica.coldApplyLogin]

lemma commitLogin_journal (m : InternalLoginMsg) : (r.commitLogin m.toJson).mem.journal = r.mem.journal := by
  simp [commitLogin, decodeEntry_login, internalLogin, MemReplica.coldApplyLogin]

end RaftReplica

structure LoginCommits (m : InternalLoginMsg) (r : RaftReplica) : Prop where
  truncated : ∀ d, m.rsCommitLsn < d → (r.commitLogin m.toJson).mem.journal.find d = none
  login : decodeEntry m.toJson = .ok (.login m)
  sync : ∀ m' : SyncRSCommitLSNMsg, decodeEntry m'.toJson = .ok (.sync m')

theorem loginCommits_iff (m : InternalLoginMsg) (r : RaftReplica) :
    LoginCommits m r ↔ m.rsCommitLsn = -1 ∧ ∀ d, -1 < d → r.mem.journal.find d = none := by
  constructor
  · intro h
    have hm := h.login
    rw [decodeEntry_login, Except.ok.injEq, RaftMsg.login.injEq] at hm
    have hrs : m.rsCommitLsn = -1 := by rw [← hm]
    refine ⟨hrs, fun d hd => ?_⟩
    rw [← r.commitLogin_journal m]
    exact h.truncated d (hrs ▸ hd)
  · rintro ⟨hrs, hj⟩
    constructor
    · intro d hd
      rw [r.commitLogin_journal]
      exact hj d (hrs ▸ hd)
    · rw [decodeEntry_login, ← hrs]
    · exact decodeEntry_sync

theorem committed_login_keeps_tail :
    let hdr : ClientHdr := ⟨1, -1, -1, 7⟩
    let r₀ : RaftReplica := (RaftReplica.new 4096).installLogin { clientToken := 7, term := 1 }
    let m : InternalLoginMsg := { clientToken := 8, term := 2, rsCommitLsn := 0 }
    ∃ l r₁, r₀.mem.doWrite hdr 0 0 4096 none = .ok (l, r₁) ∧
    ∃ l' r₂, r₁.doWrite hdr 1 0 4096 none = .ok (l', r₂) ∧
      (({ r₀ with mem := r₂ } : RaftReplica).commitLogin m.toJson).mem.term = 2 ∧
      (({ r₀ with mem := r₂ } : RaftReplica).commitLogin m.toJson).mem.journal.find 1 ≠ none ∧
      decodeEntry m.toJson ≠ .ok (.login m) := by
  refine ⟨_, _, rfl, _, _, rfl, ?_, ?_, ?_⟩ <;> decide +kernel

end CraftClient.Raft
