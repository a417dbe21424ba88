import CraftClient.Cluster.Model
import CraftClient.Replica.Journal

namespace CraftClient.Cluster

open Replica Router Runs

variable {ρ : Type} {n : ℕ} {d e : ℤ} {m : Fin n}

/-- `acked` are the members whose `do_write` of a slot succeeded, `voided` the copies that were overwritten
by a tombstone. -/
structure AckSys (ρ : Type) (n : ℕ) where
  loginDlsn : ℤ
  net : MemTransport ρ n
  acked : ℤ → Finset (Fin n)
  voided : Finset (Fin n × ℤ)

def AckSys.start (L : ℤ) (net : MemTransport ρ n) : AckSys ρ n := ⟨L, net, fun _ => ∅, ∅⟩

structure Fresh (L : ℤ) (net : MemTransport ρ n) : Prop where
  journal : ∀ m d, L < d → (net.members m).journal.find d = none
  rounds : ∀ i, net.rounds i = .idle

inductive AckAct (ρ : Type) (n : ℕ)
  | deliver (m : Fin n) (hdr : ClientHdr) (d : ℤ) (addr len : UInt64) (bytes : Option (List UInt8))
  | read (m : Fin n) (hdr : ClientHdr) (H : ℤ) (addr len destSize : UInt64)
  | keepAlive (m : Fin n) (hdr : ClientHdr)
  | setUp (m : Fin n) (up : Bool)
  | setLeader (m : Fin n)
  | resolve (i : ρ) (caller : Fin n) (term : UInt64) (upto : ℤ)
  | go (i : ρ)
  | forget (i : ρ)

def MemTransport.setMember (s : MemTransport ρ n) (m : Fin n) (r : MemReplica) : MemTransport ρ n :=
  { s with members := Function.update s.members m r }

def overwrites (s : MemTransport ρ n) (i : ρ) : Option (Fin n × ℤ) :=
  match s.rounds i with
  | .running _ (.mark d (m :: _) _) =>
    if ((s.members m).journal.find d).any fun sl => !sl.isEmpty then some (m, d) else none
  | _ => none

variable [DecidableEq ρ]

def ackStep (s : AckSys ρ n) : AckAct ρ n → Option (AckSys ρ n)
  | .deliver m hdr d addr len bytes =>
    if s.loginDlsn < d then
      match (s.net.members m).doWrite hdr d addr len bytes with
      | .ok (_, r) => some { s with
          net := s.net.setMember m r
          acked := Function.update s.acked d (insert m (s.acked d)) }
      | .error _ => some s
    else none
  | .read m hdr H addr len destSize =>
    match (s.net.members m).doRead hdr H addr len destSize with
    | .ok (_, r) => some { s with net := s.net.setMember m r }
    | .error _ => some s
  | .keepAlive m hdr =>
    match (s.net.members m).doKeepAlive hdr with
    | .ok (_, r) => some { s with net := s.net.setMember m r }
    | .error _ => some s
  | .setUp m up => some { s with net := { s.net with up := Function.update s.net.up m up } }
  | .setLeader m => some { s with net := { s.net with leader := m } }
  | .resolve i caller term upto =>
    match s.net.rounds i with
    | .idle => some { s with net := { s.net with
        rounds := Function.update s.net.rounds i (s.net.startRound caller term upto) } }
    | _ => none
  | .go i => (s.net.goRound i).map fun net =>
      { s with
        net := net
        voided := match overwrites s.net i with
          | none => s.voided
          | some p => insert p s.voided }
  | .forget i =>
    match s.net.rounds i with
    | .done _ _ => some { s with net := { s.net with rounds := Function.update s.net.rounds i .idle } }
    | _ => none

def Passed (s : MemTransport ρ n) (i : ρ) (m : Fin n) (d : ℤ) : Prop :=
  match s.rounds i with
  | .running c (.scan e rest none) => e = d ∧ m ∈ c.live ∧ m ∉ rest
  | .running _ (.mark e rest false) => e = d ∧ m ∈ rest
  | _ => False

def AckAct.Ok (s : AckSys ρ n) : AckAct ρ n → Prop
  | .deliver m hdr d addr len bytes => (∃ i, Passed s.net i m d) →
    ∀ p, (s.net.members m).doWrite hdr d addr len bytes ≠ .ok p
  | _ => True

section Journals

omit [DecidableEq ρ]

variable {members : Fin n → MemReplica} {c : RoundCall n} {pc : RoundPc n} {r r' : MemReplica}

def Keeps (r r' : MemReplica) : Prop :=
  ∀ d, ((r.journal.find d).isSome → (r'.journal.find d).isSome) ∧ (HoldsEmpty r d → HoldsEmpty r' d)

lemma Keeps.of_journal (h : r'.journal = r.journal) : Keeps r r' := by
  intro d
  rw [HoldsEmpty, HoldsEmpty, h]
  exact ⟨id, id⟩

lemma keeps_append {s : MemJournalSlot} (h : HoldsEmpty r d → s.isEmpty = true) :
    Keeps r (r.append d s) := by
  intro e
  simp only [HoldsEmpty, MemReplica.find_append]
  split_ifs with he
  · subst he
    exact ⟨fun _ => rfl, fun hem => ⟨s, rfl, h hem⟩⟩
  · exact ⟨id, id⟩

lemma keeps_coldInstallSlot {s : MemJournalSlot} : Keeps r (r.coldInstallSlot d s) := by
  rw [MemReplica.coldInstallSlot]
  split_ifs with h
  · exact .of_journal rfl
  · refine keeps_append fun ⟨sl, hsl, _⟩ => absurd ?_ h
    rw [hsl]
    rfl

def CarriesData : RoundPc n → Prop
  | .scan _ _ (some copy) | .fill _ _ copy | .install _ _ copy => copy.isEmpty = false
  | _ => True

lemma roundStep_keeps (q : Fin n) : Keeps (members q) ((roundStep members c pc).1 q) := by
  have hsame : Keeps (members q) (members q) := .of_journal rfl
  have hupd : ∀ m r, Keeps (members m) r → Keeps (members q) (Function.update members m r q) := by
    intro m r hr
    by_cases hq : q = m
    · subst hq
      rwa [Function.update_self]
    · rwa [Function.update_of_ne hq]
  cases pc with
  | scan d rest copy => cases rest <;> cases copy <;> exact hsame
  | floor rest | fill d rest =>
    cases rest <;> exact hsame
  | mark d rest =>
    cases rest with
    | nil => exact hsame
    | cons m rest => exact hupd m _ (keeps_append fun _ => rfl)
  | install d rest =>
    cases rest with
    | nil => exact hsame
    | cons m rest => exact hupd m _ keeps_coldInstallSlot
  | sync rest =>
    cases rest with
    | nil => exact hsame
    | cons m rest => exact hupd m _ (.of_journal (MemReplica.applyUpTo_journal _ _))
  | reply => exact hsame

lemma roundStep_holdsEmpty {q : Fin n} (hc : CarriesData pc)
    (h : HoldsEmpty ((roundStep members c pc).1 q) e) :
    HoldsEmpty (members q) e ∨ ∃ rest v, pc = .mark e (q :: rest) v := by
  cases pc with
  | scan d rest copy => cases rest <;> cases copy <;> exact Or.inl h
  | floor rest | fill d rest =>
    cases rest <;> exact Or.inl h
  | reply => exact Or.inl h
  | sync rest =>
    cases rest with
    | nil => exact Or.inl h
    | cons m rest =>
      left
      simp only [roundStep, Function.update_apply] at h
      split_ifs at h with hq
      · subst hq
        simpa [HoldsEmpty, MemReplica.coldApplySync] using h
      · exact h
  | mark d rest v =>
    cases rest with
    | nil => exact Or.inl h
    | cons m rest =>
      simp only [roundStep, Function.update_apply] at h
      split_ifs at h with hq
      · subst hq
        simp only [HoldsEmpty, MemReplica.coldMarkEmpty, MemReplica.find_append] at h
        split_ifs at h with he
        · subst he
          exact Or.inr ⟨rest, v, rfl⟩
        · exact Or.inl h
      · exact Or.inl h
  | install d rest copy =>
    cases rest with
    | nil => exact Or.inl h
    | cons m rest =>
      left
      simp only [roundStep, Function.update_apply] at h
      split_ifs at h with hq
      · subst hq
        rw [MemReplica.coldInstallSlot] at h
        split_ifs at h with hs
        · exact h
        · simp only [HoldsEmpty, MemReplica.find_append] at h
          split_ifs at h with he
          · obtain ⟨s, rfl, hem⟩ : ∃ s, copy = s ∧ s.isEmpty = true := by simpa using h
            rw [show copy.isEmpty = false from hc] at hem
            cases hem
          · exact h
      · exact h

end Journals

end CraftClient.Cluster
