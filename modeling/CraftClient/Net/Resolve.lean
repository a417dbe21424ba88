import CraftClient.Lib.Runs
import CraftClient.Replica.Journal
import CraftClient.Router.RouteMap

/-! RESOLVE over a set of `craft_tcp_server`s, each of which answers from its own journal alone. -/

namespace CraftClient.Net

open Replica Router Runs

variable {n : ℕ}

/-- `craft_tcp_server` in the middle of a session, less the geometry that LOGIN advertises. -/
structure TcpServer where
  replica : MemReplica
  sessionTerm : UInt64
  sessionActive : Bool

namespace TcpServer

variable (v : TcpServer)

def hdr (commitLsn allCommittedLsn : ℤ) : ClientHdr := ⟨v.sessionTerm, commitLsn, allCommittedLsn, 0⟩

def onWrite (commitLsn allCommittedLsn dlsn : ℤ) (addr len : UInt64) (bytes : Option (List UInt8)) :
    (UInt8 × LsnPair) × TcpServer :=
  if ¬ v.sessionActive then ((Wire.staleTerm, v.replica.peekLsns), v)
  else match v.replica.doWrite (v.hdr commitLsn allCommittedLsn) dlsn addr len bytes with
    | .ok (l, r) => ((Wire.ok, l), { v with replica := r })
    | .error e => ((toWireStatus e, v.replica.peekLsns), v)

def onResolve (commitLsn allCommittedLsn upto : ℤ) : (UInt8 × ResolutionResult) × TcpServer :=
  if ¬ v.sessionActive then ((Wire.staleTerm, ⟨0, []⟩), v)
  else match v.replica.doResolveLocal (v.hdr commitLsn allCommittedLsn) upto with
    | .ok (res, r) => ((Wire.ok, res), { v with replica := r })
    | .error e => ((toWireStatus e, ⟨0, []⟩), v)

def onKeepAlive (commitLsn allCommittedLsn : ℤ) : (UInt8 × LsnPair) × TcpServer :=
  if ¬ v.sessionActive then ((Wire.staleTerm, ⟨-1, -1⟩), v)
  else match v.replica.doKeepAlive (v.hdr commitLsn allCommittedLsn) with
    | .ok (l, r) => ((Wire.ok, l), { v with replica := r })
    | .error e => ((toWireStatus e, ⟨-1, -1⟩), v)

end TcpServer

inductive WriteLeg
  | pending
  | lost
  | answered (status : UInt8)
  deriving DecidableEq

structure WireWrite (n : ℕ) where
  commitLsn : ℤ
  allCommittedLsn : ℤ
  addr : UInt64
  len : UInt64
  bytes : Option (List UInt8)
  legs : Fin n → WriteLeg

def WireWrite.setLeg (w : WireWrite n) (m : Fin n) (leg : WriteLeg) : WireWrite n :=
  { w with legs := Function.update w.legs m leg }

/-- One client and its servers. `replies` holds what each server has answered to RESOLVE. -/
structure ServerSet (n : ℕ) where
  servers : Fin n → TcpServer
  nextDlsn : ℤ
  writes : ℤ → Option (WireWrite n)
  replies : Fin n → List ResolutionResult

inductive ServerAct (n : ℕ)
  | write (commitLsn allCommittedLsn : ℤ) (addr len : UInt64) (bytes : Option (List UInt8))
  | deliver (d : ℤ) (m : Fin n)
  | lose (d : ℤ) (m : Fin n)
  | keepAlive (m : Fin n) (commitLsn allCommittedLsn : ℤ)
  | resolve (m : Fin n) (commitLsn allCommittedLsn upto : ℤ)

namespace ServerSet

def start (servers : Fin n → TcpServer) (L : ℤ) : ServerSet n := ⟨servers, L + 1, fun _ => none, fun _ => []⟩

variable (s : ServerSet n)

def replica (m : Fin n) : MemReplica := (s.servers m).replica

def setServer (m : Fin n) (v : TcpServer) : ServerSet n := { s with servers := Function.update s.servers m v }

def setWrite (d : ℤ) (w : WireWrite n) : ServerSet n :=
  { s with writes := Function.update s.writes d (some w) }

end ServerSet

def serverStep (s : ServerSet n) : ServerAct n → Option (ServerSet n)
  | .write commitLsn allCommittedLsn addr len bytes =>
    some { s.setWrite s.nextDlsn ⟨commitLsn, allCommittedLsn, addr, len, bytes, fun _ => .pending⟩ with
      nextDlsn := s.nextDlsn + 1 }
  | .deliver d m => do
    let w ← s.writes d
    if w.legs m = .pending then
      let (rsp, v) := (s.servers m).onWrite w.commitLsn w.allCommittedLsn d w.addr w.len w.bytes
      some ((s.setServer m v).setWrite d (w.setLeg m (.answered rsp.1)))
    else none
  | .lose d m => do
    let w ← s.writes d
    if w.legs m = .pending then some (s.setWrite d (w.setLeg m .lost)) else none
  | .keepAlive m commitLsn allCommittedLsn =>
    some (s.setServer m ((s.servers m).onKeepAlive commitLsn allCommittedLsn).2)
  | .resolve m commitLsn allCommittedLsn upto =>
    let (rsp, v) := (s.servers m).onResolve commitLsn allCommittedLsn upto
    let s' := s.setServer m v
    some (if rsp.1 = Wire.ok then { s' with replies := Function.update s.replies m (rsp.2 :: s.replies m) }
      else s')

def Refused (s : ServerSet n) (d : ℤ) : Prop :=
  ∃ w, s.writes d = some w ∧ ∀ m, w.legs m ≠ .pending ∧ w.legs m ≠ .answered Wire.ok

def QuorumAcked (s : ServerSet n) (d : ℤ) : Prop :=
  ∃ w, s.writes d = some w ∧ quorum n ≤ (Finset.univ.filter fun m => w.legs m = .answered Wire.ok).card

def TcpServer.Serves (v : TcpServer) : Prop := v.sessionActive ∧ v.sessionTerm = v.replica.term

/-- A server answers a RESOLVE when the slots that it lacks have been refused by all, and when no verdict is at
or below its commit point. -/
def Settled (s : ServerSet n) : ServerAct n → Prop
  | .resolve m _ _ upto => (s.servers m).Serves →
    (∀ d, (s.replica m).commitLsn < d → d ≤ upto → (s.replica m).journal.find d = none → Refused s d) ∧
      ∀ d, d ≤ (s.replica m).commitLsn → d ≤ upto → ¬ HoldsEmpty (s.replica m) d
  | _ => True

structure Fresh (L : ℤ) (servers : Fin n → TcpServer) : Prop where
  commit : ∀ m, (servers m).replica.commitLsn ≤ L
  above : ∀ m d, L < d → (servers m).replica.journal.find d = none

structure ResolveSafe (L : ℤ) (servers : Fin n → TcpServer) (s : ServerSet n) : Prop where
  voided : ∀ m d, HoldsEmpty (s.replica m) d → ¬ HoldsEmpty (servers m).replica d → L < d ∧ ¬ QuorumAcked s d
  verdicts : ∀ m m' res res' d, res ∈ s.replies m → res' ∈ s.replies m' → L < d → d ∈ res.emptySlots →
    d ≤ res'.resolvedUpto → d ∈ res'.emptySlots

section Servers

variable {v : TcpServer} {commitLsn allCommittedLsn d upto : ℤ} {addr len : UInt64} {bytes : Option (List UInt8)}

lemma toWireStatus_ne_ok (e : ErrorCond) : toWireStatus e ≠ Wire.ok := by
  cases e with
  | craft e => cases e <;> decide
  | _ => decide

namespace TcpServer

lemma onWrite_cases (v : TcpServer) (commitLsn allCommittedLsn d : ℤ) (addr len : UInt64)
    (bytes : Option (List UInt8)) :
    (∃ l r, v.replica.doWrite (v.hdr commitLsn allCommittedLsn) d addr len bytes = .ok (l, r) ∧
      v.onWrite commitLsn allCommittedLsn d addr len bytes = ((Wire.ok, l), { v with replica := r })) ∨
    ∃ st l, st ≠ Wire.ok ∧ v.onWrite commitLsn allCommittedLsn d addr len bytes = ((st, l), v) := by
  simp only [onWrite]
  split_ifs
  · split
    · rename_i l r hw
      exact Or.inl ⟨l, r, hw, rfl⟩
    · exact Or.inr ⟨_, _, toWireStatus_ne_ok _, rfl⟩
  · exact Or.inr ⟨Wire.staleTerm, _, by decide, rfl⟩

lemma onResolve_cases (v : TcpServer) (commitLsn allCommittedLsn upto : ℤ) :
    (∃ res r, v.Serves ∧ v.replica.doResolveLocal (v.hdr commitLsn allCommittedLsn) upto = .ok (res, r) ∧
      v.onResolve commitLsn allCommittedLsn upto = ((Wire.ok, res), { v with replica := r })) ∨
    ∃ st res, st ≠ Wire.ok ∧ v.onResolve commitLsn allCommittedLsn upto = ((st, res), v) := by
  simp only [onResolve]
  split_ifs with ha
  · split
    · rename_i res r hw
      refine Or.inl ⟨res, r, ⟨ha, ?_⟩, hw, rfl⟩
      simp only [MemReplica.doResolveLocal] at hw
      split_ifs at hw with ht
      exact not_not.mp ht
    · exact Or.inr ⟨_, _, toWireStatus_ne_ok _, rfl⟩
  · exact Or.inr ⟨Wire.staleTerm, _, by decide, rfl⟩

lemma onKeepAlive_replica (v : TcpServer) (commitLsn allCommittedLsn : ℤ) :
    (v.onKeepAlive commitLsn allCommittedLsn).2.replica = v.replica ∨
      (v.onKeepAlive commitLsn allCommittedLsn).2.replica = v.replica.applyUpTo commitLsn := by
  simp only [onKeepAlive]
  split_ifs
  · split
    · rename_i l r hw
      obtain ⟨-, rfl, -⟩ := MemReplica.doKeepAlive_ok hw
      exact Or.inr rfl
    · exact Or.inl rfl
  · exact Or.inl rfl

end TcpServer

end Servers

def HoldsWrite (r : MemReplica) (d : ℤ) : Prop := ∃ sl, r.journal.find d = some sl ∧ sl.isEmpty = false

structure ServerInv (L : ℤ) (servers : Fin n → TcpServer) (s : ServerSet n) : Prop where
  issued : ∀ d w, s.writes d = some w → L < d ∧ d < s.nextDlsn
  next : L < s.nextDlsn
  taken : ∀ m d, L < d → HoldsWrite (s.replica m) d → ∃ w, s.writes d = some w ∧ w.legs m = .answered Wire.ok
  acked : ∀ m d w, s.writes d = some w → w.legs m = .answered Wire.ok → HoldsWrite (s.replica m) d
  void : ∀ m d, HoldsEmpty (s.replica m) d → HoldsEmpty (servers m).replica d ∨ Refused s d
  dense : ∀ m d, L < d → d ≤ (s.replica m).commitLsn → ((s.replica m).journal.find d).isSome
  empties : ∀ m res d, res ∈ s.replies m → d ∈ res.emptySlots → HoldsEmpty (s.replica m) d
  others : ∀ m res d, res ∈ s.replies m → L < d → d ≤ res.resolvedUpto → d ∉ res.emptySlots →
    HoldsWrite (s.replica m) d

section Steps

variable {L : ℤ} {servers : Fin n → TcpServer} {s t : ServerSet n} {m : Fin n} {d : ℤ}

lemma replica_setServer (s : ServerSet n) (m q : Fin n) (v : TcpServer) :
    (s.setServer m v).replica q = if q = m then v.replica else s.replica q := by
  simp only [ServerSet.replica, ServerSet.setServer, Function.update_apply]
  split_ifs <;> rfl

lemma writes_setWrite (s : ServerSet n) (d e : ℤ) (w : WireWrite n) :
    (s.setWrite d w).writes e = if e = d then some w else s.writes e := Function.update_apply ..

lemma ServerInv.applied (h : ServerInv L servers s) {v : TcpServer}
    (hv : v.replica = s.replica m ∨ ∃ target, v.replica = (s.replica m).applyUpTo target) :
    ServerInv L servers (s.setServer m v) := by
  have hj : ∀ q, ((s.setServer m v).replica q).journal = (s.replica q).journal := by
    intro q
    rw [replica_setServer]
    split_ifs with hq
    · subst hq
      obtain hv | ⟨target, hv⟩ := hv
      · rw [hv]
      · rw [hv, MemReplica.applyUpTo_journal]
    · rfl
  have hempty : ∀ q e, HoldsEmpty ((s.setServer m v).replica q) e ↔ HoldsEmpty (s.replica q) e := by
    intro q e
    rw [HoldsEmpty, hj, HoldsEmpty]
  have hwrite : ∀ q e, HoldsWrite ((s.setServer m v).replica q) e ↔ HoldsWrite (s.replica q) e := by
    intro q e
    rw [HoldsWrite, hj, HoldsWrite]
  refine { h with taken := ?_, acked := ?_, void := ?_, dense := ?_, empties := ?_, others := ?_ }
  · intro q e he hw
    exact h.taken q e he ((hwrite q e).mp hw)
  · intro q e w hw hl
    exact (hwrite q e).mpr (h.acked q e w hw hl)
  · intro q e hq
    exact h.void q e ((hempty q e).mp hq)
  · intro q e he hc
    rw [hj]
    rw [replica_setServer] at hc
    split_ifs at hc with hq
    · subst hq
      obtain hv | ⟨target, hv⟩ := hv
      · rw [hv] at hc
        exact h.dense q e he hc
      · rw [hv] at hc
        rcases le_or_gt e (s.replica q).commitLsn with hle | hlt
        · exact h.dense q e he hle
        · exact MemReplica.isSome_of_applyUpTo hlt hc
    · exact h.dense q e he hc
  · intro q res e hr he
    exact (hempty q e).mpr (h.empties q res e hr he)
  · intro q res e hr he hle hn
    exact (hwrite q e).mpr (h.others q res e hr he hle hn)

variable {w : WireWrite n}

lemma Refused.setLeg (h : Refused s d) {e : ℤ} (hw : s.writes e = some w) (hp : w.legs m = .pending)
    {leg : WriteLeg} {s' : ServerSet n} (hs : s'.writes = (s.setWrite e (w.setLeg m leg)).writes) :
    Refused s' d := by
  obtain ⟨w', hw', hr⟩ := h
  have hne : d ≠ e := by
    rintro rfl
    cases hw.symm.trans hw'
    exact (hr m).1 hp
  refine ⟨w', ?_, hr⟩
  rw [hs, writes_setWrite, if_neg hne, hw']

lemma WireWrite.legs_setLeg (w : WireWrite n) (m q : Fin n) (leg : WriteLeg) :
    (w.setLeg m leg).legs q = if q = m then leg else w.legs q := Function.update_apply ..

lemma ServerInv.setLeg (h : ServerInv L servers s) (hw : s.writes d = some w) (hp : w.legs m = .pending)
    (leg : WriteLeg) (hleg : leg ≠ .answered Wire.ok) : ServerInv L servers (s.setWrite d (w.setLeg m leg)) := by
  refine { h with issued := ?_, taken := ?_, acked := ?_, void := ?_ }
  · intro e w' hw'
    rw [writes_setWrite] at hw'
    split_ifs at hw' with he
    · exact he ▸ h.issued d w hw
    · exact h.issued e w' hw'
  · intro q e he hq
    obtain ⟨w', hw', hl⟩ := h.taken q e he hq
    rw [writes_setWrite]
    split_ifs with hed
    · subst hed
      cases hw.symm.trans hw'
      refine ⟨_, rfl, ?_⟩
      rw [WireWrite.legs_setLeg, if_neg, hl]
      rintro rfl
      cases hp.symm.trans hl
    · exact ⟨w', hw', hl⟩
  · intro q e w' hw' hl
    rw [writes_setWrite] at hw'
    split_ifs at hw' with hed
    · cases hw'
      subst hed
      rw [WireWrite.legs_setLeg] at hl
      split_ifs at hl
      · exact absurd hl hleg
      · exact h.acked q e w hw hl
    · exact h.acked q e w' hw' hl
  · intro q e hq
    exact (h.void q e hq).imp_right fun hr => hr.setLeg hw hp rfl

lemma ServerInv.append (h : ServerInv L servers s) (hw : s.writes d = some w) (hp : w.legs m = .pending)
    {v : TcpServer} (slot : MemJournalSlot) (hslot : slot.isEmpty = false)
    (hfree : ∀ sl, (s.replica m).journal.find d = some sl → sl.isEmpty = false)
    (hv : v.replica = (s.replica m).append d slot) :
    ServerInv L servers ((s.setServer m v).setWrite d (w.setLeg m (.answered Wire.ok))) := by
  set t := (s.setServer m v).setWrite d (w.setLeg m (.answered Wire.ok))
  have hwrites : ∀ e, t.writes e = if e = d then some (w.setLeg m (.answered Wire.ok)) else s.writes e :=
    fun e => writes_setWrite ..
  have hat : AppendsAt s.replica t.replica m d slot := by
    constructor
    · exact (replica_setServer ..).trans ((if_pos rfl).trans hv)
    · intro q hq
      exact (replica_setServer ..).trans (if_neg hq)
  -- what holds elsewhere, and what held before
  have hkeep : ∀ q e, HoldsWrite (s.replica q) e → HoldsWrite (t.replica q) e := by
    rintro q e ⟨sl, hsl, he⟩
    rw [HoldsWrite, hat.find]
    split_ifs
    · exact ⟨slot, rfl, hslot⟩
    · exact ⟨sl, hsl, he⟩
  have hempty : ∀ q e, HoldsEmpty (t.replica q) e ↔ HoldsEmpty (s.replica q) e := by
    intro q e
    rw [HoldsEmpty, HoldsEmpty, hat.find]
    split_ifs with hqe
    · obtain ⟨rfl, rfl⟩ := hqe
      constructor
      · rintro ⟨sl, hsl, he⟩
        cases hsl
        exact absurd he (by simp [hslot])
      · rintro ⟨sl, hsl, he⟩
        exact absurd he (by simp [hfree sl hsl])
    · rfl
  refine ⟨?_, h.next, ?_, ?_, ?_, ?_, ?_, ?_⟩
  · intro e w' hw'
    rw [hwrites] at hw'
    split_ifs at hw' with he
    · exact he ▸ h.issued d w hw
    · exact h.issued e w' hw'
  · rintro q e he ⟨sl, hsl, hse⟩
    rw [hat.find] at hsl
    split_ifs at hsl with hqe
    · obtain ⟨rfl, rfl⟩ := hqe
      exact ⟨_, (hwrites e).trans (if_pos rfl), (w.legs_setLeg ..).trans (if_pos rfl)⟩
    · obtain ⟨w', hw', hl⟩ := h.taken q e he ⟨sl, hsl, hse⟩
      rw [hwrites]
      split_ifs with hed
      · subst hed
        cases hw.symm.trans hw'
        refine ⟨_, rfl, ?_⟩
        rw [WireWrite.legs_setLeg, if_neg fun hq => hqe ⟨hq, rfl⟩, hl]
      · exact ⟨w', hw', hl⟩
  · intro q e w' hw' hl
    rw [hwrites] at hw'
    split_ifs at hw' with hed
    · cases hw'
      subst hed
      rw [WireWrite.legs_setLeg] at hl
      split_ifs at hl with hq
      · refine ⟨slot, ?_, hslot⟩
        rw [hat.find, if_pos ⟨hq, rfl⟩]
      · exact hkeep q e (h.acked q e w hw hl)
    · exact hkeep q e (h.acked q e w' hw' hl)
  · intro q e hq
    exact (h.void q e ((hempty q e).mp hq)).imp_right fun hr => hr.setLeg hw hp rfl
  · intro q e he hc
    rw [hat.commitLsn] at hc
    exact hat.isSome_find (h.dense q e he hc)
  · intro q res e hr he
    exact (hempty q e).mpr (h.empties q res e hr he)
  · intro q res e hr he hle hn
    exact hkeep q e (h.others q res e hr he hle hn)

lemma ServerInv.deliver (h : ServerInv L servers s) (hw : s.writes d = some w) (hp : w.legs m = .pending)
    {hdr : ClientHdr} {l : LsnPair} {r : MemReplica}
    (hr : (s.replica m).doWrite hdr d w.addr w.len w.bytes = .ok (l, r)) :
    ServerInv L servers ((s.setServer m { s.servers m with replica := r }).setWrite d
      (w.setLeg m (.answered Wire.ok))) := by
  obtain ⟨-, -, hfree, rfl, -⟩ := MemReplica.doWrite_ok hr
  set slot := (s.replica m).writeSlot hdr w.addr w.len w.bytes
  have happ := h.append hw hp (v := { s.servers m with replica := (s.replica m).append d slot }) slot rfl hfree rfl
  have hset := happ.applied (m := m) (v := { s.servers m with
      replica := ((s.replica m).append d slot).applyUpTo hdr.commitLsn }) (Or.inr ⟨hdr.commitLsn, by
    change _ = MemReplica.applyUpTo (ServerSet.replica (s.setServer m _) m) _
    rw [replica_setServer, if_pos rfl]⟩)
  simpa [ServerSet.setServer, ServerSet.setWrite] using hset

lemma ServerInv.write (h : ServerInv L servers s) (hlegs : ∀ m, w.legs m = .pending) :
    ServerInv L servers { s.setWrite s.nextDlsn w with nextDlsn := s.nextDlsn + 1 } := by
  have hnone : ∀ e w', s.writes e = some w' → e ≠ s.nextDlsn := fun e w' hw => (h.issued e w' hw).2.ne
  have hold : ∀ e w', s.writes e = some w' → (s.setWrite s.nextDlsn w).writes e = some w' := by
    intro e w' hw
    rw [writes_setWrite, if_neg (hnone e w' hw), hw]
  refine { h with issued := ?_, next := ?_, taken := ?_, acked := ?_, void := ?_ }
  · intro e w' hw
    change (s.setWrite s.nextDlsn w).writes e = some w' at hw
    change L < e ∧ e < s.nextDlsn + 1
    rw [writes_setWrite] at hw
    split_ifs at hw with he
    · rw [he]
      exact ⟨h.next, Int.lt_succ _⟩
    · obtain ⟨hL, hlt⟩ := h.issued e w' hw
      exact ⟨hL, hlt.trans (Int.lt_succ _)⟩
  · exact h.next.trans (Int.lt_succ _)
  · intro q e he hq
    obtain ⟨w', hw', hl⟩ := h.taken q e he hq
    exact ⟨w', hold e w' hw', hl⟩
  · intro q e w' hw hl
    change (s.setWrite s.nextDlsn w).writes e = some w' at hw
    rw [writes_setWrite] at hw
    split_ifs at hw with he
    · cases hw
      cases (hlegs q).symm.trans hl
    · exact h.acked q e w' hw hl
  · intro q e hq
    refine (h.void q e hq).imp_right ?_
    rintro ⟨w', hw', hr⟩
    exact ⟨w', hold e w' hw', hr⟩

lemma ServerInv.resolve (h : ServerInv L servers s) {hdr : ClientHdr} {upto : ℤ} {res : ResolutionResult}
    {r : MemReplica} (hr : (s.replica m).doResolveLocal hdr upto = .ok (res, r))
    (hhole : ∀ d, (s.replica m).commitLsn < d → d ≤ upto → (s.replica m).journal.find d = none → Refused s d)
    (hverdict : ∀ d, d ≤ (s.replica m).commitLsn → d ≤ upto → ¬ HoldsEmpty (s.replica m) d) :
    ServerInv L servers { s.setServer m { s.servers m with replica := r } with
      replies := Function.update s.replies m (res :: s.replies m) } := by
  obtain ⟨hupto, -, hj⟩ := doResolveLocal_ok hr
  obtain ⟨-, hexact⟩ := (replyExact_doResolveLocal_iff hr).mpr hverdict
  set s' := s.setServer m { s.servers m with replica := r }
  have hrep : ∀ q, s'.replica q = if q = m then r else s.replica q := fun q => replica_setServer ..
  have hkeep : ∀ q e sl, (s.replica q).journal.find e = some sl → (s'.replica q).journal.find e = some sl := by
    intro q e sl hsl
    rw [hrep]
    split_ifs with hq
    · subst hq
      rw [hj, if_neg (by simp [hsl]), hsl]
    · exact hsl
  have hof : ∀ q e sl, (s'.replica q).journal.find e = some sl →
      (s.replica q).journal.find e = some sl ∨ sl.isEmpty = true ∧ Refused s e := by
    intro q e sl hsl
    rw [hrep] at hsl
    split_ifs at hsl with hq
    · subst hq
      rw [hj] at hsl
      split_ifs at hsl with he
      · cases hsl
        exact Or.inr ⟨rfl, hhole e he.1.1 he.1.2 he.2⟩
      · exact Or.inl hsl
    · exact Or.inl hsl
  have hsome : ∀ e, L < e → e ≤ upto → (r.journal.find e).isSome := by
    intro e he hle
    rw [hj]
    split_ifs with hc
    · rfl
    · rcases le_or_gt e (s.replica m).commitLsn with hle' | hlt
      · exact h.dense m e he hle'
      · exact Option.isSome_iff_ne_none.mpr fun hn => hc ⟨⟨hlt, hle⟩, hn⟩
  have hreplies : ∀ q res', res' ∈ Function.update s.replies m (res :: s.replies m) q →
      q = m ∧ res' = res ∨ res' ∈ s.replies q := by
    intro q res' hres
    rcases eq_or_ne q m with rfl | hq
    · rw [Function.update_self] at hres
      exact (List.mem_cons.mp hres).imp_left fun he => ⟨rfl, he⟩
    · rw [Function.update_of_ne hq] at hres
      exact Or.inr hres
  refine { h with taken := ?_, acked := ?_, void := ?_, dense := ?_, empties := ?_, others := ?_ }
  · rintro q e he ⟨sl, hsl, hse⟩
    obtain hsl | ⟨hcon, -⟩ := hof q e sl hsl
    · exact h.taken q e he ⟨sl, hsl, hse⟩
    · rw [hse] at hcon
      cases hcon
  · intro q e w' hw' hl
    obtain ⟨sl, hsl, hse⟩ := h.acked q e w' hw' hl
    exact ⟨sl, hkeep q e sl hsl, hse⟩
  · rintro q e ⟨sl, hsl, hse⟩
    obtain hsl | ⟨-, href⟩ := hof q e sl hsl
    · exact h.void q e ⟨sl, hsl, hse⟩
    · exact Or.inr href
  · intro q e he hc
    change ((s'.replica q).journal.find e).isSome
    change e ≤ (s'.replica q).commitLsn at hc
    rw [hrep] at hc ⊢
    split_ifs at hc ⊢ with hq
    · subst hq
      rcases le_or_gt e (s.replica q).commitLsn with hle | hlt
      · obtain ⟨sl, hsl⟩ := Option.isSome_iff_exists.mp (h.dense q e he hle)
        have := hkeep q e sl hsl
        rw [hrep, if_pos rfl] at this
        rw [this]
        rfl
      · exact isSome_of_doResolveLocal hr hlt hc
    · exact h.dense q e he hc
  · intro q res' e hres he
    obtain ⟨rfl, rfl⟩ | hres := hreplies q res' hres
    · obtain ⟨-, hholds⟩ := (hexact e).mp he
      change HoldsEmpty (s'.replica q) e
      rwa [hrep, if_pos rfl]
    · obtain ⟨sl, hsl, hse⟩ := h.empties q res' e hres he
      exact ⟨sl, hkeep q e sl hsl, hse⟩
  · intro q res' e hres he hle hn
    obtain ⟨rfl, rfl⟩ | hres := hreplies q res' hres
    · obtain ⟨sl, hsl⟩ := Option.isSome_iff_exists.mp (hsome e he (hupto ▸ hle))
      change HoldsWrite (s'.replica q) e
      rw [hrep, if_pos rfl]
      refine ⟨sl, hsl, Bool.eq_false_iff.mpr fun hse => hn ?_⟩
      exact (hexact e).mpr ⟨hle, sl, hsl, hse⟩
    · obtain ⟨sl, hsl, hse⟩ := h.others q res' e hres he hle hn
      exact ⟨sl, hkeep q e sl hsl, hse⟩

lemma ServerInv.step (h : ServerInv L servers s) {a : ServerAct n} (hok : Settled s a)
    (hs : serverStep s a = some t) : ServerInv L servers t := by
  cases a with
  | write commitLsn allCommittedLsn addr len bytes =>
    cases hs
    exact h.write fun _ => rfl
  | deliver d m =>
    simp only [serverStep, Option.bind_eq_bind, Option.bind_eq_some_iff] at hs
    obtain ⟨w, hw, hs⟩ := hs
    split_ifs at hs with hp
    cases hs
    obtain ⟨l, r, hr, he⟩ | ⟨st, l, hst, he⟩ :=
      (s.servers m).onWrite_cases w.commitLsn w.allCommittedLsn d w.addr w.len w.bytes
    · rw [he]
      exact h.deliver hw hp hr
    · rw [he]
      have hset := h.setLeg hw hp (.answered st) (by simpa using hst)
      simpa [ServerSet.setServer] using hset
  | lose d m =>
    simp only [serverStep, Option.bind_eq_bind, Option.bind_eq_some_iff] at hs
    obtain ⟨w, hw, hs⟩ := hs
    split_ifs at hs with hp
    cases hs
    exact h.setLeg hw hp .lost (by decide)
  | keepAlive m commitLsn allCommittedLsn =>
    cases hs
    refine h.applied ?_
    obtain hv | hv := (s.servers m).onKeepAlive_replica commitLsn allCommittedLsn
    · exact Or.inl hv
    · exact Or.inr ⟨commitLsn, hv⟩
  | resolve m commitLsn allCommittedLsn upto =>
    simp only [serverStep, Option.some.injEq] at hs
    obtain ⟨res, r, hserves, hr, he⟩ | ⟨st, res, hst, he⟩ :=
      (s.servers m).onResolve_cases commitLsn allCommittedLsn upto
    · rw [he] at hs
      obtain ⟨hhole, hverdict⟩ := hok hserves
      rw [← hs]
      exact h.resolve hr hhole hverdict
    · rw [he] at hs
      simp only [hst, if_false] at hs
      rw [← hs]
      exact h.applied (Or.inl rfl)

lemma serverInv_start (hf : Fresh L servers) : ServerInv L servers (.start servers L) where
  issued _ _ hw := by cases hw
  next := Int.lt_succ L
  taken m d hd := by
    rintro ⟨sl, hsl, -⟩
    exact absurd ((hf.above m d hd).symm.trans hsl) (by simp)
  acked _ _ _ hw := by cases hw
  void _ _ := Or.inl
  dense m d hd hle := absurd (hle.trans (hf.commit m)) (not_le.mpr hd)
  empties _ _ _ hr := by cases hr
  others _ _ _ hr := by cases hr

end Steps

theorem resolve_safe {L : ℤ} {servers : Fin n → TcpServer} {s : ServerSet n} (hf : Fresh L servers)
    (h : Reach serverStep Settled (.start servers L) s) : ResolveSafe L servers s := by
  have hinv : ServerInv L servers s :=
    h.invariant (serverInv_start hf) fun _ _ _ hi hok hs => hi.step hok hs
  constructor
  · intro m d hd hnot
    obtain ⟨w, hw, hr⟩ := (hinv.void m d hd).resolve_left hnot
    refine ⟨(hinv.issued d w hw).1, ?_⟩
    rintro ⟨w', hw', hq⟩
    cases hw.symm.trans hw'
    obtain ⟨q, hq⟩ := Finset.card_pos.mp ((Nat.succ_pos _).trans_le hq)
    exact (hr q).2 (Finset.mem_filter.mp hq).2
  · intro m m' res res' d hres hres' hL hd hle
    by_contra hn
    have hnot : ¬ HoldsEmpty (servers m).replica d := by
      rintro ⟨sl, hsl, -⟩
      exact absurd ((hf.above m d hL).symm.trans hsl) (by simp)
    obtain ⟨w, hw, hr⟩ := (hinv.void m d (hinv.empties m res d hres hd)).resolve_left hnot
    obtain ⟨w', hw', hl⟩ := hinv.taken m' d hL (hinv.others m' res' d hres' hL hle hn)
    cases hw.symm.trans hw'
    exact (hr m').2 hl

section Runs

instance (s : ServerSet n) (d : ℤ) : Decidable (Refused s d) :=
  decidable_of_iff ((s.writes d).any fun w => decide (∀ m, w.legs m ≠ .pending ∧ w.legs m ≠ .answered Wire.ok)) (by
    simp [Refused, Option.any_eq_true])

instance (s : ServerSet n) (d : ℤ) : Decidable (QuorumAcked s d) :=
  decidable_of_iff ((s.writes d).any fun w =>
    decide (quorum n ≤ (Finset.univ.filter fun m => w.legs m = .answered Wire.ok).card)) (by
    simp [QuorumAcked, Option.any_eq_true])

instance (v : TcpServer) : Decidable v.Serves := inferInstanceAs (Decidable (_ ∧ _))

instance (s : ServerSet n) (a : ServerAct n) : Decidable (Settled s a) :=
  match a with
  | .resolve m _ _ upto => decidable_of_iff ((s.servers m).Serves →
      (∀ d ∈ MemReplica.dlsns (s.replica m).commitLsn upto, (s.replica m).journal.find d = none → Refused s d) ∧
        (s.replica m).peekEmpties (min (s.replica m).commitLsn upto) = []) (by
      refine forall_congr' fun _ => and_congr ?_ ?_
      · simp only [mem_dlsns, and_imp]
      · simp only [List.eq_nil_iff_forall_not_mem, (replyExact_peekEmpties _ _).2, le_min_iff, not_and, and_imp])
  | .write _ _ _ _ _ | .deliver _ _ | .lose _ _ | .keepAlive _ _ _ => .isTrue trivial

def threeServers : Fin 3 → TcpServer := fun _ => ⟨(MemReplica.new 4096).coldApplyLogin 7 1, 1, true⟩

lemma fresh_threeServers : Fresh (-1) threeServers := ⟨fun _ => le_rfl, fun _ _ _ => rfl⟩

theorem resolve_safe_lostWrite :
    ∃ s : ServerSet 3, Reach serverStep Settled (.start threeServers (-1)) s ∧ ⟨0, [0]⟩ ∈ s.replies 0 ∧
      ⟨0, [0]⟩ ∈ s.replies 2 ∧ ResolveSafe (-1) threeServers s := by
  obtain ⟨s, hs, ht⟩ := Reach.exists_of_exec serverStep Settled (.start threeServers (-1))
    [.write (-1) (-1) 0 4096 none, .lose 0 0, .lose 0 1, .lose 0 2, .resolve 2 (-1) (-1) 0,
      .resolve 0 (-1) (-1) 0, .resolve 1 (-1) (-1) 0]
    (fun s => ⟨0, [0]⟩ ∈ s.replies 0 && ⟨0, [0]⟩ ∈ s.replies 2) (by decide +kernel)
  obtain ⟨h₀, h₂⟩ := Bool.and_eq_true_iff.mp ht
  exact ⟨s, hs, of_decide_eq_true h₀, of_decide_eq_true h₂, resolve_safe fresh_threeServers hs⟩

def holdsEmpty (r : MemReplica) (d : ℤ) : Bool := (r.journal.find d).any MemJournalSlot.isEmpty

theorem server_voids_acked_slot :
    ∃ s : ServerSet 3, Reach serverStep free (.start threeServers (-1)) s ∧ QuorumAcked s 0 ∧
      HoldsEmpty (s.replica 2) 0 ∧ ¬ HoldsEmpty (threeServers 2).replica 0 ∧
      ⟨1, [0, 1]⟩ ∈ s.replies 2 ∧ ⟨1, [1]⟩ ∈ s.replies 0 := by
  obtain ⟨s, hs, ht⟩ := Reach.exists_of_exec serverStep free (.start threeServers (-1))
    [.write (-1) (-1) 0 4096 none, .deliver 0 0, .deliver 0 1, .lose 0 2, .write 0 (-1) 4096 4096 none,
      .lose 1 0, .lose 1 1, .lose 1 2, .resolve 2 0 (-1) 1, .resolve 0 0 (-1) 1]
    (fun s => QuorumAcked s 0 && (holdsEmpty (s.replica 2) 0 &&
      (⟨1, [0, 1]⟩ ∈ s.replies 2 && ⟨1, [1]⟩ ∈ s.replies 0))) (by decide +kernel)
  obtain ⟨hq, ht⟩ := Bool.and_eq_true_iff.mp ht
  obtain ⟨he, ht⟩ := Bool.and_eq_true_iff.mp ht
  obtain ⟨h₂, h₀⟩ := Bool.and_eq_true_iff.mp ht
  obtain ⟨sl, hsl, hse⟩ := (Option.any_eq_true _ _).mp he
  refine ⟨s, hs, of_decide_eq_true hq, ⟨sl, hsl, hse⟩, ?_, of_decide_eq_true h₂, of_decide_eq_true h₀⟩
  rintro ⟨sl, hsl, -⟩
  cases hsl

end Runs

end CraftClient.Net
