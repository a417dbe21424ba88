import CraftClient.Status
import CraftClient.Router.RouteMap
import CraftClient.Tracker.Model

/-! `craft_client::login`: the walk over the members, and the admission loop behind the reply that grants a session. -/

namespace CraftClient.Client

open Router Runs Tracker

variable {n : ℕ}

structure ClientState (n : ℕ) where
  leader : ℕ
  term : UInt64
  clientToken : UInt64
  lbaSize : UInt32
  capacity : UInt64
  maxTx : UInt32
  trk : DlsnTracker
  want : ℤ
  route : RouteMap n

structure LoginAnswer where
  term : UInt64
  dLSN : ℤ
  capacity : UInt64
  lbaSize : UInt32
  maxTx : UInt32
  deriving DecidableEq

namespace ClientState

variable (c : ClientState n)

def precheck (addr len : UInt64) : Option ErrorCond :=
  if c.term = 0 then some .notConnected
  else if c.lbaSize ≠ 0 ∧ len ≠ 0 ∧ addr % c.lbaSize.toUInt64 = 0 ∧ len % c.lbaSize.toUInt64 = 0 then none
  else some .invalidArgument

def install (token : UInt64) (hop : ℕ) (lr : LoginAnswer) : ClientState n where
  leader := (c.leader + hop) % n
  term := lr.term
  clientToken := token
  lbaSize := lr.lbaSize
  capacity := lr.capacity
  maxTx := lr.maxTx
  trk := { c.trk with
    lbaSize := lr.lbaSize.toUInt64
    nextDlsn := lr.dLSN + 1
    lastTrunc := lr.dLSN
    frontier := lr.dLSN
    highestAcked := lr.dLSN
    tracker := .emplace lr.dLSN }
  want := -1
  route := .reset n lr.dLSN

def seed (ack : Fin n → Except ErrorCond LsnPair) (c : ClientState n) (i : Fin n) : ClientState n :=
  match ack i with
  | .error _ => c
  | .ok l =>
    haveI : NeZero n := ⟨i.pos.ne'⟩
    { c with route := c.route.advanceSynced i l.commitLsn }

end ClientState

inductive LoginPc
  | hop (k : ℕ) (lastErr : Option ErrorCond)
  | admitting (L : ℤ)
  | done (res : Except ErrorCond Unit)
  deriving DecidableEq

/-- `granted` is the reply that has opened the session. -/
structure ClientLogin (n : ℕ) where
  client : ClientState n
  pc : LoginPc
  granted : Option LoginAnswer

inductive LoginLabel (n : ℕ)
  | reply (lr : Except ErrorCond LoginAnswer)
  | probes (acks : Fin n → Except ErrorCond LsnPair) (late : Bool)

def nextHop (n k : ℕ) (lastErr : Option ErrorCond) : LoginPc :=
  if k < n then .hop k lastErr else .done (.error (lastErr.getD (.craft .notLeader)))

def ClientLogin.start (c : ClientState n) : ClientLogin n := ⟨c, nextHop n 0 none, none⟩

def acked (acks : Fin n → Except ErrorCond LsnPair) : ℕ :=
  (List.finRange n).countP fun i => (acks i).isOk

def holderAt (L : ℤ) (acks : Fin n → Except ErrorCond LsnPair) : Bool :=
  (List.finRange n).any fun i => (acks i).toOption.any fun l => L ≤ l.commitLsn

def clientLoginStep (token : UInt64) (s : ClientLogin n) : LoginLabel n → Option (ClientLogin n)
  | .reply lr =>
    match s.pc with
    | .hop k lastErr =>
      match lr with
      | .error e => some { s with pc := nextHop n (k + 1) (some e) }
      | .ok lr =>
        if lr.term = 0 then some { s with pc := nextHop n (k + 1) lastErr }
        else some ⟨s.client.install token k lr, .admitting lr.dLSN, some lr⟩
    | _ => none
  | .probes acks late =>
    match s.pc with
    | .admitting L =>
      let s' := { s with client := (List.finRange n).foldl (ClientState.seed acks) s.client }
      if quorum n ≤ acked acks ∧ holderAt L acks then some { s' with pc := .done (.ok ()) }
      else if late then some { s' with pc := .done (.error (.craft .noQuorum)) }
      else some s'
    | _ => none

variable {c : ClientState n} {s s' : ClientLogin n} {token : UInt64} {a : LoginLabel n} {e : ErrorCond}

lemma seed_term (acks : Fin n → Except ErrorCond LsnPair) (c : ClientState n) (i : Fin n) :
    (c.seed acks i).term = c.term := by
  simp only [ClientState.seed]
  split <;> rfl

lemma foldl_seed_term (acks : Fin n → Except ErrorCond LsnPair) (l : List (Fin n)) (c : ClientState n) :
    (l.foldl (ClientState.seed acks) c).term = c.term := by
  induction l generalizing c with
  | nil => rfl
  | cons i l ih => rw [List.foldl_cons, ih, seed_term]

def LoginPc.Behind : LoginPc → Prop
  | .hop _ _ => False
  | .done (.error e) => e = .craft .noQuorum
  | _ => True

structure LoginInv (c : ClientState n) (s : ClientLogin n) : Prop where
  waiting : s.granted = none → s.client = c ∧ ∀ L, s.pc ≠ .admitting L
  granted : ∀ lr, s.granted = some lr → s.client.term = lr.term ∧ lr.term ≠ 0 ∧ s.pc.Behind

lemma nextHop_ne_admitting (n k : ℕ) (lastErr : Option ErrorCond) (L : ℤ) : nextHop n k lastErr ≠ .admitting L := by
  rw [nextHop]
  split_ifs <;> nofun

lemma LoginInv.hop {k : ℕ} {lastErr : Option ErrorCond} (h : LoginInv c s) (hpc : s.pc = .hop k lastErr)
    (lastErr' : Option ErrorCond) : LoginInv c { s with pc := nextHop n (k + 1) lastErr' } := by
  refine ⟨fun hg => ⟨(h.waiting hg).1, nextHop_ne_admitting n _ _⟩, fun lr hlr => ?_⟩
  have hb := (h.granted lr hlr).2.2
  rw [hpc] at hb
  exact hb.elim

lemma LoginInv.probed {L : ℤ} (h : LoginInv c s) (hpc : s.pc = .admitting L)
    (acks : Fin n → Except ErrorCond LsnPair) {pc : LoginPc} (hb : pc.Behind) :
    LoginInv c { s with client := (List.finRange n).foldl (ClientState.seed acks) s.client, pc := pc } := by
  refine ⟨fun hg => absurd hpc ((h.waiting hg).2 L), fun lr hlr => ?_⟩
  obtain ⟨hterm, hne, -⟩ := h.granted lr hlr
  exact ⟨(foldl_seed_term acks _ _).trans hterm, hne, hb⟩

lemma LoginInv.step (h : LoginInv c s) (hs : clientLoginStep token s a = some s') : LoginInv c s' := by
  cases a with
  | reply lr =>
    simp only [clientLoginStep] at hs
    split at hs
    case h_2 => cases hs
    case h_1 k lastErr hpc =>
      split at hs
      · cases hs
        exact h.hop hpc _
      · split_ifs at hs with ht
        · cases hs
          exact h.hop hpc _
        · cases hs
          refine ⟨nofun, ?_⟩
          rintro _ ⟨⟩
          exact ⟨rfl, ht, trivial⟩
  | probes acks late =>
    simp only [clientLoginStep] at hs
    split at hs
    case h_2 => cases hs
    case h_1 L hpc =>
      split_ifs at hs
      · cases hs
        exact h.probed hpc acks trivial
      · cases hs
        exact h.probed hpc acks rfl
      · cases hs
        exact h.probed hpc acks (hpc ▸ trivial)

theorem failed_login_opens_nothing (h : Reach (clientLoginStep token) free (.start c) s)
    (hpc : s.pc = .done (.error e)) :
    (s.granted = none ∨ e ≠ .craft .noQuorum → s.client = c) ∧
    (c.term = 0 → (s.granted = none ↔ ∀ addr len, s.client.precheck addr len = some .notConnected)) := by
  have hi : LoginInv c s :=
    h.invariant ⟨fun _ => ⟨rfl, nextHop_ne_admitting n _ _⟩, nofun⟩ fun _ _ _ hi _ hs => hi.step hs
  have hgrant : s.granted ≠ none → s.client.term ≠ 0 ∧ e = .craft .noQuorum := by
    intro hg
    obtain ⟨lr, hlr⟩ := Option.ne_none_iff_exists'.mp hg
    obtain ⟨hterm, hne, hb⟩ := hi.granted lr hlr
    rw [hpc] at hb
    exact ⟨hterm ▸ hne, hb⟩
  refine ⟨fun hor => (hi.waiting ?_).1, fun hc => ⟨fun hg addr len => ?_, fun hp => ?_⟩⟩
  · by_contra hg
    exact hor.elim hg fun he => he (hgrant hg).2
  · rw [(hi.waiting hg).1, ClientState.precheck, if_pos hc]
  · by_contra hg
    have hpre := hp 0 0
    rw [ClientState.precheck, if_neg (hgrant hg).1] at hpre
    split_ifs at hpre
    cases hpre

def clientAt (term : UInt64) : ClientState 3 :=
  ⟨0, term, 7, 4096, 2 ^ 30, 2 ^ 19, resetAt 128 4 4096, -1, .reset 3 4⟩

theorem failed_login_opens_nothing_noLeader :
    ∃ s, Reach (clientLoginStep 9) free (.start (clientAt 5)) s ∧ s.pc = .done (.error .timedOut) ∧
      s.client = clientAt 5 := by
  obtain ⟨s, hs, hp⟩ := Reach.exists_of_exec (clientLoginStep 9) free (.start (clientAt 5))
    [.reply (.error (.craft .replicaDown)), .reply (.error .timedOut), .reply (.ok ⟨0, -1, 0, 0, 0⟩)]
    (fun s => s.pc = .done (.error .timedOut) ∧ s.granted = none) (by decide +kernel)
  obtain ⟨hpc, hg⟩ := of_decide_eq_true hp
  exact ⟨s, hs, hpc, (failed_login_opens_nothing hs hpc).1 (Or.inl hg)⟩

def unadmitted : List (LoginLabel 3) :=
  [.reply (.ok ⟨6, 9, 2 ^ 30, 4096, 2 ^ 19⟩), .probes (fun _ => .error .timedOut) true]

def leftOpen (s : ClientLogin 3) : Bool :=
  decide (s.pc = .done (.error (.craft .noQuorum)) ∧ s.client.term = 6 ∧ s.client.precheck 0 4096 = none ∧
    s.client.trk.nextDlsn = 10 ∧ s.client.route.loginDlsn = 9)

theorem unadmitted_login_opens_session :
    (∃ s, Reach (clientLoginStep 9) free (.start (clientAt 0)) s ∧ leftOpen s = true) ∧
    ∃ s, Reach (clientLoginStep 9) free (.start (clientAt 5)) s ∧ leftOpen s = true := by
  constructor
  · exact Reach.exists_of_exec _ free _ unadmitted leftOpen (by decide +kernel)
  · exact Reach.exists_of_exec _ free _ unadmitted leftOpen (by decide +kernel)

end CraftClient.Client
