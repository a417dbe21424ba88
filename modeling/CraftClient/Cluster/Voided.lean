import CraftClient.Cluster.Verdicts

namespace CraftClient.Cluster

open Replica Router Runs

variable {ρ : Type} {n : ℕ} {L d e : ℤ} {m q : Fin n} {s s' : AckSys ρ n}

def Condemned (net : MemTransport ρ n) (m : Fin n) (d : ℤ) : Prop :=
  ∃ i c rest, net.rounds i = .running c (.mark d rest false) ∧ m ∈ rest

def Blocked (s : AckSys ρ n) (d : ℤ) : Prop :=
  ∃ Q : Finset (Fin n), quorum n ≤ Q.card ∧
    ∀ m ∈ Q, m ∉ s.acked d ∧ (HoldsEmpty (s.net.members m) d ∨ Condemned s.net m d)

def PcOk (s : AckSys ρ n) (c : RoundCall n) : RoundPc n → Prop
  | .scan d rest none => ∀ m ∈ c.live, m ∉ rest → m ∉ s.acked d
  | .mark d rest false =>
    ∀ m ∈ c.live, m ∉ s.acked d ∧ (m ∈ rest ∨ HoldsEmpty (s.net.members m) d)
  | .mark d _ true => s.loginDlsn < d → Blocked s d
  | _ => True

structure RoundOk (s : AckSys ρ n) (c : RoundCall n) (pc : RoundPc n) : Prop where
  nodup : c.live.Nodup
  live : quorum n ≤ c.live.length
  data : CarriesData pc
  pc : PcOk s c pc

structure AckInv (s : AckSys ρ n) : Prop where
  issued : ∀ d m, m ∈ s.acked d → s.loginDlsn < d
  present : ∀ d m, m ∈ s.acked d → ((s.net.members m).journal.find d).isSome
  rounds : ∀ i c pc, s.net.rounds i = .running c pc → RoundOk s c pc
  tombs : ∀ m d, s.loginDlsn < d → HoldsEmpty (s.net.members m) d → Blocked s d
  voided : ∀ m d, (m, d) ∈ s.voided → s.loginDlsn < d → Blocked s d

lemma Blocked.card_lt (h : Blocked s d) : (s.acked d).card < quorum n := by
  obtain ⟨Q, hQ, hq⟩ := h
  have hdis : Disjoint Q (s.acked d) := Finset.disjoint_left.mpr fun m hm => (hq m hm).1
  have hle := Finset.card_le_univ (Q ∪ s.acked d)
  rw [Finset.card_union_of_disjoint hdis, Fintype.card_fin] at hle
  unfold quorum at *
  omega

lemma Blocked.mono (h : Blocked s d) (ha : ∀ m, m ∈ s'.acked d → m ∈ s.acked d ∨
      ¬ (HoldsEmpty (s.net.members m) d ∨ Condemned s.net m d))
    (ht : ∀ m, HoldsEmpty (s.net.members m) d → HoldsEmpty (s'.net.members m) d)
    (hc : ∀ m, Condemned s.net m d → HoldsEmpty (s'.net.members m) d ∨ Condemned s'.net m d) :
    Blocked s' d := by
  obtain ⟨Q, hQ, hq⟩ := h
  refine ⟨Q, hQ, fun m hm => ?_⟩
  obtain ⟨hna, htc⟩ := hq m hm
  refine ⟨fun hm' => ?_, ?_⟩
  · rcases ha m hm' with h | h
    · exact hna h
    · exact h htc
  · rcases htc with h | h
    · exact Or.inl (ht m h)
    · exact hc m h

lemma PcOk.mono {c : RoundCall n} {pc : RoundPc n} (h : PcOk s c pc)
    (hl : s'.loginDlsn = s.loginDlsn) (ha : s'.acked = s.acked)
    (ht : ∀ m d, HoldsEmpty (s.net.members m) d → HoldsEmpty (s'.net.members m) d)
    (hb : ∀ d, Blocked s d → Blocked s' d) : PcOk s' c pc := by
  cases pc with
  | scan d rest copy =>
    cases copy with
    | none =>
      intro m hm hr
      rw [ha]
      exact h m hm hr
    | some copy => trivial
  | mark d rest v =>
    cases v with
    | false =>
      intro m hm
      obtain ⟨h₁, h₂⟩ := h m hm
      exact ⟨ha ▸ h₁, h₂.imp_right (ht m d)⟩
    | true =>
      intro hd
      exact hb d (h (hl ▸ hd))
  | _ => trivial

lemma AckInv.of_same (h : AckInv s) (hl : s'.loginDlsn = s.loginDlsn) (ha : s'.acked = s.acked)
    (hv : s'.voided = s.voided)
    (hj : ∀ m, (s'.net.members m).journal = (s.net.members m).journal)
    (hr : ∀ i c pc, s'.net.rounds i = .running c pc → s.net.rounds i = .running c pc ∨ RoundOk s' c pc)
    (hc : ∀ m d, Condemned s.net m d → Condemned s'.net m d) : AckInv s' := by
  have ht : ∀ m d, HoldsEmpty (s'.net.members m) d ↔ HoldsEmpty (s.net.members m) d := by
    intro m d
    rw [HoldsEmpty, HoldsEmpty, hj]
  have hb : ∀ d, Blocked s d → Blocked s' d := fun d hb =>
    hb.mono (fun m hm => Or.inl (ha ▸ hm)) (fun m => (ht m d).mpr) fun m hm => Or.inr (hc m d hm)
  refine ⟨?_, ?_, fun i c pc hi => ?_, fun m d hd hm => ?_, fun m d hm hd => ?_⟩
  · rw [hl, ha]
    exact h.issued
  · intro d m hm
    rw [hj]
    exact h.present d m (ha ▸ hm)
  · rcases hr i c pc hi with hi | hok
    · have hok := h.rounds i c pc hi
      exact ⟨hok.nodup, hok.live, hok.data, hok.pc.mono hl ha (fun m d => (ht m d).mpr) hb⟩
    · exact hok
  · exact hb d (h.tombs m d (hl ▸ hd) ((ht m d).mp hm))
  · exact hb d (h.voided m d (hv ▸ hm) (hl ▸ hd))

lemma passed_of_scan {net : MemTransport ρ n} {i : ρ} {c : RoundCall n} {rest : List (Fin n)}
    (hi : net.rounds i = .running c (.scan d rest none)) (hm : m ∈ c.live) (hr : m ∉ rest) :
    Passed net i m d := by
  rw [Passed, hi]
  exact ⟨rfl, hm, hr⟩

lemma passed_of_mark {net : MemTransport ρ n} {i : ρ} {c : RoundCall n} {rest : List (Fin n)}
    (hi : net.rounds i = .running c (.mark d rest false)) (hm : m ∈ rest) : Passed net i m d := by
  rw [Passed, hi]
  exact ⟨rfl, hm⟩

lemma AckInv.accept {r : MemReplica} (h : AckInv s) (hL : s.loginDlsn < d)
    (hno : ¬ HoldsEmpty (s.net.members m) d) (hpass : ∀ i, ¬ Passed s.net i m d)
    (sl : MemJournalSlot) (hsl : r.journal.find d = some sl) (hne : sl.isEmpty = false)
    (hr : ∀ e, e ≠ d → r.journal.find e = (s.net.members m).journal.find e) :
    AckInv { s with
      net := s.net.setMember m r
      acked := Function.update s.acked d (insert m (s.acked d)) } := by
  set s' : AckSys ρ n := { s with
    net := s.net.setMember m r
    acked := Function.update s.acked d (insert m (s.acked d)) } with hs'
  have hmem : ∀ q, s'.net.members q = if q = m then r else s.net.members q := fun q => by
    simp only [hs', MemTransport.setMember, Function.update_apply]
  have hack : ∀ e q, q ∈ s'.acked e ↔ e = d ∧ q = m ∨ q ∈ s.acked e := by
    intro e q
    by_cases he : e = d
    · subst he
      simp [hs']
    · simp [hs', he]
  have ht : ∀ q e, HoldsEmpty (s'.net.members q) e ↔ HoldsEmpty (s.net.members q) e := by
    intro q e
    rw [hmem]
    split_ifs with hq
    · subst hq
      by_cases hed : e = d
      swap
      · rw [HoldsEmpty, HoldsEmpty, hr e hed]
      · subst hed
        refine iff_of_false ?_ hno
        rintro ⟨s₀, hs₀, hem⟩
        rw [hsl] at hs₀
        cases hs₀
        rw [hne] at hem
        cases hem
    · rfl
  have hcond : ∀ q e, Condemned s'.net q e ↔ Condemned s.net q e := fun q e => Iff.rfl
  have hnc : ¬ Condemned s.net m d := by
    rintro ⟨i, c, rest, hi, hm⟩
    exact hpass i (passed_of_mark hi hm)
  have hb : ∀ e, Blocked s e → Blocked s' e := by
    intro e hbl
    refine hbl.mono (fun q hq => ?_) (fun q => (ht q e).mpr) fun q hq => Or.inr ((hcond q e).mpr hq)
    rcases (hack e q).mp hq with ⟨rfl, rfl⟩ | hq
    · exact Or.inr fun hh => hh.elim hno hnc
    · exact Or.inl hq
  refine ⟨fun e q hq => ?_, fun e q hq => ?_, fun i c pc hi => ?_, fun q e he hq => ?_, fun q e hq he => ?_⟩
  · rcases (hack e q).mp hq with ⟨rfl, -⟩ | hq
    · exact hL
    · exact h.issued e q hq
  · rw [hmem]
    rcases (hack e q).mp hq with ⟨rfl, rfl⟩ | hq
    · rw [if_pos rfl, hsl]
      rfl
    · split_ifs with hqm
      · by_cases hed : e = d
        · rw [hed, hsl]
          rfl
        · rw [hr e hed, ← hqm]
          exact h.present e q hq
      · exact h.present e q hq
  · have hi : s.net.rounds i = .running c pc := hi
    have hok := h.rounds i c pc hi
    refine ⟨hok.nodup, hok.live, hok.data, ?_⟩
    have hp := hok.pc
    cases pc with
    | scan e rest copy =>
      cases copy with
      | none =>
        intro q hq hrest hqa
        rcases (hack e q).mp hqa with ⟨rfl, rfl⟩ | hqa
        · exact hpass i (passed_of_scan hi hq hrest)
        · exact hp q hq hrest hqa
      | some copy => trivial
    | mark e rest v =>
      cases v with
      | false =>
        intro q hq
        obtain ⟨h₁, h₂⟩ := hp q hq
        refine ⟨fun hqa => ?_, h₂.imp_right (ht q e).mpr⟩
        rcases (hack e q).mp hqa with ⟨rfl, rfl⟩ | hqa
        · rcases h₂ with h₂ | h₂
          · exact hnc ⟨i, c, rest, hi, h₂⟩
          · exact hno h₂
        · exact h₁ hqa
      | true => exact fun he => hb e (hp he)
    | _ => trivial
  · exact hb e (h.tombs q e he ((ht q e).mp hq))
  · exact hb e (h.voided q e hq he)

section Go

variable {c : RoundCall n} {pc pc' : RoundPc n}

lemma carriesData_nextSlot : CarriesData (nextSlot c d) := by
  rw [nextSlot]
  split_ifs <;> trivial

lemma pcOk_nextSlot : PcOk s c (nextSlot c d) := by
  rw [nextSlot]
  split_ifs
  · exact fun m hm hn => absurd hm hn
  · trivial

lemma holdsEmpty_mark (members : Fin n → MemReplica) (c : RoundCall n) (rest : List (Fin n))
    (v : Bool) : HoldsEmpty ((roundStep members c (.mark d (m :: rest) v)).1 m) d :=
  ⟨emptySlot (members m).term, by simp [roundStep, MemReplica.coldMarkEmpty], rfl⟩

lemma RoundOk.next (h : AckInv s) (hr : RoundOk s c pc) (hl : s'.loginDlsn = s.loginDlsn)
    (ha : s'.acked = s.acked) (hm : s'.net.members = (roundStep s.net.members c pc).1)
    (hb : ∀ d, Blocked s d → Blocked s' d) (hn : (roundStep s.net.members c pc).2 = .inl pc') :
    RoundOk s' c pc' := by
  have ht : ∀ q d, HoldsEmpty (s.net.members q) d → HoldsEmpty (s'.net.members q) d := by
    intro q d
    rw [hm]
    exact (roundStep_keeps q d).2
  suffices hnext : CarriesData pc' ∧ PcOk s' c pc' from ⟨hr.nodup, hr.live, hnext.1, hnext.2⟩
  have hd := hr.data
  have hp := hr.pc
  cases pc with
  | floor rest f =>
    cases rest with
    | nil =>
      cases hn
      exact ⟨carriesData_nextSlot, pcOk_nextSlot⟩
    | cons m rest =>
      cases hn
      exact ⟨trivial, trivial⟩
  | scan d rest copy =>
    cases rest with
    | nil =>
      cases copy with
      | none =>
        cases hn
        refine ⟨trivial, fun m hlive => ⟨?_, Or.inl hlive⟩⟩
        rw [ha]
        exact hp m hlive List.not_mem_nil
      | some copy =>
        cases hn
        exact ⟨hd, trivial⟩
    | cons m rest =>
      simp only [roundStep, Sum.inl.injEq] at hn
      cases hpk : (s.net.members m).peekSlot d with
      | none =>
        rw [hpk] at hn
        subst hn
        cases copy with
        | none =>
          refine ⟨trivial, fun q hq hrest => ?_⟩
          rw [ha]
          by_cases hqm : q = m
          · intro hqa
            have hsome := h.present d q hqa
            rw [hqm, show (s.net.members m).journal.find d = none from hpk] at hsome
            cases hsome
          · exact hp q hq (by simp [hqm, hrest])
        | some copy => exact ⟨hd, trivial⟩
      | some sl =>
        simp only [hpk] at hn
        by_cases hem : sl.isEmpty = true
        · rw [if_pos hem] at hn
          subst hn
          exact ⟨trivial, fun hL => hb d (h.tombs m d (hl ▸ hL) ⟨sl, hpk, hem⟩)⟩
        · rw [if_neg hem] at hn
          subst hn
          cases copy with
          | none => exact ⟨eq_false_of_ne_true hem, trivial⟩
          | some copy => exact ⟨hd, trivial⟩
  | mark d rest v =>
    cases rest with
    | nil =>
      cases hn
      exact ⟨carriesData_nextSlot, pcOk_nextSlot⟩
    | cons m rest =>
      cases hn
      refine ⟨trivial, ?_⟩
      cases v with
      | true => exact fun hL => hb d (hp (hl ▸ hL))
      | false =>
        intro q hq
        obtain ⟨hqa, hqt⟩ := hp q hq
        refine ⟨by rw [ha]; exact hqa, ?_⟩
        rcases hqt with hqt | hqt
        · rcases List.mem_cons.mp hqt with rfl | hqt
          · right
            rw [hm]
            exact holdsEmpty_mark _ c rest _
          · exact Or.inl hqt
        · exact Or.inr (ht q d hqt)
  | fill d rest copy =>
    cases rest with
    | nil =>
      cases hn
      exact ⟨carriesData_nextSlot, pcOk_nextSlot⟩
    | cons m rest =>
      simp only [roundStep, Sum.inl.injEq] at hn
      split_ifs at hn <;> subst hn <;> exact ⟨hd, trivial⟩
  | install d rest copy =>
    cases rest <;> cases hn <;> exact ⟨hd, trivial⟩
  | sync rest =>
    cases rest <;> cases hn <;> exact ⟨trivial, trivial⟩
  | reply => cases hn

lemma overwrites_eq_some {net : MemTransport ρ n} {i : ρ} (h : overwrites net i = some (m, d)) :
    ∃ c rest v, net.rounds i = .running c (.mark d (m :: rest) v) := by
  unfold overwrites at h
  split at h
  · rename_i c e q rest v hi
    split_ifs at h
    cases h
    exact ⟨c, rest, v, hi⟩
  · cases h

lemma RoundOk.blocked_of_mark {rest : List (Fin n)} {v : Bool} {i : ρ}
    (hr : RoundOk s c (.mark d (m :: rest) v)) (hL : s.loginDlsn < d) (ha : s'.acked = s.acked)
    (hm : s'.net.members = (roundStep s.net.members c (.mark d (m :: rest) v)).1)
    (hi : s'.net.rounds i = .running c (.mark d rest v))
    (hb : ∀ d, Blocked s d → Blocked s' d) : Blocked s' d := by
  cases v with
  | true => exact hb d (hr.pc hL)
  | false =>
    refine ⟨c.live.toFinset, ?_, fun q hq => ?_⟩
    · rw [List.toFinset_card_of_nodup hr.nodup]
      exact hr.live
    · obtain ⟨hqa, hqt⟩ := hr.pc q (List.mem_toFinset.mp hq)
      refine ⟨by rw [ha]; exact hqa, ?_⟩
      rw [hm]
      rcases hqt with hqt | hqt
      · rcases List.mem_cons.mp hqt with rfl | hqt
        · exact Or.inl (holdsEmpty_mark _ c rest _)
        · exact Or.inr ⟨i, c, rest, hi, hqt⟩
      · exact Or.inl ((roundStep_keeps q d).2 hqt)

lemma startRound_running {net : MemTransport ρ n} {caller : Fin n} {term : UInt64} {upto : ℤ}
    (h : net.startRound caller term upto = .running c pc) :
    c.live.Nodup ∧ quorum n ≤ c.live.length ∧ ∃ f, pc = .floor c.live f := by
  simp only [MemTransport.startRound] at h
  split_ifs at h with h₁ h₂ h₃ h₄ h₅
  cases h
  exact ⟨(List.nodup_finRange n).filter _, not_lt.mp h₅, _, rfl⟩

lemma AckInv.member_same {r : MemReplica} (h : AckInv s)
    (hj : r.journal = (s.net.members m).journal) : AckInv { s with net := s.net.setMember m r } := by
  refine h.of_same rfl rfl rfl (fun q => ?_) (fun _ _ _ => Or.inl) fun _ _ => id
  simp only [MemTransport.setMember, Function.update_apply]
  split_ifs with hq
  · rw [hj, hq]
  · rfl

variable [DecidableEq ρ]

lemma AckInv.of_roundStep {i : ρ} {c : RoundCall n} {pc : RoundPc n} {rounds : ρ → Round n}
    {voided : Finset (Fin n × ℤ)} (h : AckInv s) (hi : s.net.rounds i = .running c pc)
    (hother : ∀ j, j ≠ i → rounds j = s.net.rounds j)
    (hself : ∀ pc', (roundStep s.net.members c pc).2 = .inl pc' → rounds i = .running c pc')
    (hdone : ∀ res, (roundStep s.net.members c pc).2 = .inr res → ∀ c' pc', rounds i ≠ .running c' pc')
    (hvoided : ∀ p ∈ voided, p ∈ s.voided ∨ overwrites s.net i = some p) :
    AckInv { s with
      net := { s.net with members := (roundStep s.net.members c pc).1, rounds := rounds }
      voided := voided } := by
  have hr := h.rounds i c pc hi
  set s' : AckSys ρ n := { s with
    net := { s.net with members := (roundStep s.net.members c pc).1, rounds := rounds }
    voided := voided }
  have ht : ∀ q d, HoldsEmpty (s.net.members q) d → HoldsEmpty (s'.net.members q) d :=
    fun q d => (roundStep_keeps q d).2
  have hcond : ∀ q d, Condemned s.net q d →
      HoldsEmpty (s'.net.members q) d ∨ Condemned s'.net q d := by
    rintro q d ⟨j, c', rest, hj, hq⟩
    by_cases hji : j = i
    · subst hji
      rw [hi] at hj
      cases hj
      cases rest with
      | nil => cases hq
      | cons m rest =>
        rcases List.mem_cons.mp hq with rfl | hq
        · exact Or.inl (holdsEmpty_mark _ c rest false)
        · exact Or.inr ⟨j, c, rest, hself _ rfl, hq⟩
    · exact Or.inr ⟨j, c', rest, (hother j hji).trans hj, hq⟩
  have hb : ∀ d, Blocked s d → Blocked s' d := fun d hbl =>
    hbl.mono (fun m hm => Or.inl hm) (fun m => ht m d) fun m => hcond m d
  refine ⟨h.issued, fun d m hm => (roundStep_keeps m d).1 (h.present d m hm), ?_, ?_, ?_⟩
  · intro j c' pc' hj
    have hj : rounds j = .running c' pc' := hj
    by_cases hji : j = i
    · subst hji
      have hnext : (∃ pc'', (roundStep s.net.members c pc).2 = .inl pc'') ∨
          ∃ res, (roundStep s.net.members c pc).2 = .inr res := by
        cases (roundStep s.net.members c pc).2 <;> simp
      rcases hnext with ⟨pc'', hn⟩ | ⟨res, hn⟩
      · rw [hself pc'' hn] at hj
        cases hj
        exact hr.next h rfl rfl rfl hb hn
      · exact absurd hj (hdone res hn c' pc')
    · rw [hother j hji] at hj
      have hok := h.rounds j c' pc' hj
      exact ⟨hok.nodup, hok.live, hok.data, hok.pc.mono rfl rfl ht hb⟩
  · intro q d hL hq
    rcases roundStep_holdsEmpty hr.data hq with hq | ⟨rest, v, rfl⟩
    · exact hb d (h.tombs q d hL hq)
    · exact hr.blocked_of_mark hL rfl rfl (hself _ rfl) hb
  · intro q d hq hL
    rcases hvoided (q, d) hq with hq | hq
    · exact hb d (h.voided q d hq hL)
    · obtain ⟨c', rest, v, hrun⟩ := overwrites_eq_some hq
      rw [hi] at hrun
      cases hrun
      exact hr.blocked_of_mark hL rfl rfl (hself _ rfl) hb

lemma AckInv.go {i : ρ} (h : AckInv s) (hs : ackStep s (.go i) = some s') : AckInv s' := by
  obtain ⟨net, hgo, rfl⟩ := Option.map_eq_some_iff.mp hs
  cases hi : s.net.rounds i with
  | idle | done => simp [MemTransport.goRound, hi] at hgo
  | running c pc =>
    simp only [MemTransport.goRound, hi, Option.some.injEq] at hgo
    subst hgo
    apply h.of_roundStep hi
    · exact fun j hj => Function.update_of_ne hj _ _
    · intro pc' hn
      simp [hn]
    · intro res hn c' pc'
      simp [hn]
    · intro p hp
      cases how : overwrites s.net i with
      | none =>
        rw [how] at hp
        exact Or.inl hp
      | some q =>
        rw [how] at hp
        exact (Finset.mem_insert.mp hp).symm.imp_right fun he => congrArg some he.symm

lemma AckInv.rounds_update {i : ρ} {rd : Round n} (h : AckInv s)
    (hi : ∀ c pc, s.net.rounds i ≠ .running c pc)
    (hrd : ∀ c pc, rd = .running c pc →
      c.live.Nodup ∧ quorum n ≤ c.live.length ∧ ∃ f, pc = .floor c.live f) :
    AckInv { s with net := { s.net with rounds := Function.update s.net.rounds i rd } } := by
  refine h.of_same rfl rfl rfl (fun _ => rfl) (fun j c pc hj => ?_) ?_
  · simp only [Function.update_apply] at hj
    split_ifs at hj
    · obtain ⟨hn, hq, f, rfl⟩ := hrd c pc hj
      exact Or.inr ⟨hn, hq, trivial, trivial⟩
    · exact Or.inl hj
  · rintro m d ⟨j, c, rest, hj, hm⟩
    have hji : j ≠ i := fun he => hi _ _ (he ▸ hj)
    exact ⟨j, c, rest, by simpa [Function.update_of_ne hji] using hj, hm⟩

lemma AckInv.step {a : AckAct ρ n} (h : AckInv s) (hok : a.Ok s) (hs : ackStep s a = some s') :
    AckInv s' := by
  cases a with
  | deliver m hdr d addr len bytes =>
    simp only [ackStep] at hs
    split_ifs at hs with hL
    cases hw : (s.net.members m).doWrite hdr d addr len bytes with
    | error e =>
      rw [hw] at hs
      cases hs
      exact h
    | ok p =>
      obtain ⟨l, r⟩ := p
      rw [hw] at hs
      cases hs
      obtain ⟨-, -, hno, rfl, -⟩ := MemReplica.doWrite_ok hw
      refine h.accept hL ?_ (fun i hi => hok ⟨i, hi⟩ _ hw)
        ((s.net.members m).writeSlot hdr addr len bytes) (by simp) rfl fun e he => by simp [he]
      rintro ⟨sl, hsl, hem⟩
      rw [hno sl hsl] at hem
      cases hem
  | read m hdr H addr len destSize =>
    simp only [ackStep] at hs
    cases hw : (s.net.members m).doRead hdr H addr len destSize with
    | error e =>
      rw [hw] at hs
      cases hs
      exact h
    | ok p =>
      rw [hw] at hs
      cases hs
      obtain ⟨-, -, hr, -⟩ := MemReplica.doRead_ok hw
      apply h.member_same
      rw [hr, MemReplica.applyUpTo_journal]
  | keepAlive m hdr =>
    simp only [ackStep] at hs
    cases hw : (s.net.members m).doKeepAlive hdr with
    | error e =>
      rw [hw] at hs
      cases hs
      exact h
    | ok p =>
      rw [hw] at hs
      cases hs
      obtain ⟨-, hr, -⟩ := MemReplica.doKeepAlive_ok hw
      apply h.member_same
      rw [hr, MemReplica.applyUpTo_journal]
  | setUp m up | setLeader m =>
    cases hs
    exact h.of_same rfl rfl rfl (fun _ => rfl) (fun _ _ _ => Or.inl) fun _ _ => id
  | resolve i caller term upto =>
    simp only [ackStep] at hs
    split at hs
    · rename_i hi
      cases hs
      exact h.rounds_update (fun c pc => by simp [hi]) fun c pc => startRound_running
    · cases hs
  | go i => exact h.go hs
  | forget i =>
    simp only [ackStep] at hs
    split at hs
    · rename_i hi
      cases hs
      exact h.rounds_update (fun c pc => by simp [hi]) nofun
    · cases hs

end Go

lemma ackInv_start {net : MemTransport ρ n} (h : Fresh L net) : AckInv (.start L net) := by
  refine ⟨nofun, nofun, fun i c pc hi => ?_, fun m d hL hem => ?_, nofun⟩
  · rw [show (AckSys.start L net).net.rounds i = .idle from h.rounds i] at hi
    cases hi
  · obtain ⟨sl, hsl, -⟩ := hem
    rw [show ((AckSys.start L net).net.members m).journal.find d = none from h.journal m d hL] at hsl
    cases hsl

theorem voided_not_acked [DecidableEq ρ] {net : MemTransport ρ n} (hf : Fresh L net)
    (h : Reach ackStep AckAct.Ok (AckSys.start L net) s) (hv : (m, d) ∈ s.voided) :
    (s.acked d).card < quorum n := by
  have hi : AckInv s := h.invariant (P := AckInv) (ackInv_start hf) fun _ _ _ hi hok hs => hi.step hok hs
  by_cases hL : s.loginDlsn < d
  · exact (hi.voided m d hv hL).card_lt
  · have hempty : s.acked d = ∅ :=
      Finset.eq_empty_of_forall_notMem fun m hm => hL (hi.issued d m hm)
    rw [hempty, quorum]
    simp

section Runs

lemma fresh_firstLogin [NeZero n] : Fresh (-1) (.firstLogin 4096 7 : MemTransport ρ n) :=
  ⟨fun _ _ _ => rfl, fun _ => rfl⟩

def AckAct.calm (s : AckSys Unit 3) : AckAct Unit 3 → Bool
  | .deliver .. => match s.net.rounds () with
    | .idle => true
    | _ => false
  | _ => true

lemma AckAct.ok_of_calm {s : AckSys Unit 3} {a : AckAct Unit 3} (h : a.calm s = true) : a.Ok s := by
  cases a with
  | deliver m hdr d addr len bytes =>
    rintro ⟨i, hi⟩
    cases hrd : s.net.rounds () with
    | idle => simp [Passed, hrd] at hi
    | running | done => simp [AckAct.calm, hrd] at h
  | _ => trivial

def writeZero (m : Fin 3) : AckAct Unit 3 := .deliver m ⟨1, -1, -1, 7⟩ 0 0 4096 none

theorem voided_not_acked_loneCopy : ∃ s : AckSys Unit 3,
    Reach ackStep AckAct.Ok (AckSys.start (-1) (.firstLogin 4096 7)) s ∧ (2, 0) ∈ s.voided ∧
      s.acked 0 = {2} ∧ (s.acked 0).card < quorum 3 := by
  obtain ⟨s, hr, hp⟩ := Reach.exists_of_exec ackStep (fun s a => AckAct.calm s a = true)
    (AckSys.start (-1) (.firstLogin 4096 7))
    (List.flatten [[writeZero 2, .setUp 2 false, .resolve () 0 1 0], List.replicate 13 (.go ()),
      [.forget (), .setUp 2 true, .resolve () 0 1 0], List.replicate 9 (.go ())])
    (fun s => decide ((2, 0) ∈ s.voided ∧ s.acked 0 = {2})) (by decide +kernel)
  obtain ⟨hv, ha⟩ := of_decide_eq_true hp
  have hr := hr.mono fun s a => AckAct.ok_of_calm (s := s) (a := a)
  exact ⟨s, hr, hv, ha, voided_not_acked fresh_firstLogin hr hv⟩

theorem acked_write_voided : ∃ s : AckSys Unit 3,
    Reach ackStep free (AckSys.start (-1) (.firstLogin 4096 7)) s ∧ (0, 0) ∈ s.voided ∧
      (1, 0) ∈ s.voided ∧ quorum 3 ≤ (s.acked 0).card := by
  obtain ⟨s, hr, hp⟩ := Reach.exists_of_exec ackStep free (AckSys.start (-1) (.firstLogin 4096 7))
    (List.flatten [[.resolve () 0 1 0], List.replicate 6 (.go ()), [writeZero 0, writeZero 1],
      List.replicate 4 (.go ())])
    (fun s => decide ((0, 0) ∈ s.voided ∧ (1, 0) ∈ s.voided ∧ quorum 3 ≤ (s.acked 0).card))
    (by decide +kernel)
  exact ⟨s, hr, of_decide_eq_true hp⟩

end Runs

end CraftClient.Cluster
