import CraftClient.Client.Broadcast

namespace CraftClient.Client

open Replica Router Cluster Tracker Runs

variable {ρ : Type} {n : ℕ} {d e : ℤ} {t : UInt64} {r r' : MemReplica} {m : Fin n}

def HoldsData (r : MemReplica) (d : ℤ) (t : UInt64) : Prop :=
  ∃ s, r.journal.find d = some s ∧ s.isEmpty = false ∧ s.term = t

lemma HoldsData.of_append {s : MemJournalSlot} (h : HoldsData (r.append e s) d t) :
    HoldsData r d t ∨ (e = d ∧ s.isEmpty = false ∧ s.term = t) := by
  obtain ⟨s', hs', hdata⟩ := h
  rw [MemReplica.find_append] at hs'
  split_ifs at hs' with hd
  · cases hs'
    exact Or.inr ⟨hd.symm, hdata⟩
  · exact Or.inl ⟨s', hs', hdata⟩

lemma HoldsData.of_applyUpTo {target : ℤ} (h : HoldsData (r.applyUpTo target) d t) : HoldsData r d t := by
  rwa [HoldsData, MemReplica.applyUpTo_journal] at h

def Carries (d : ℤ) (t : UInt64) : RoundPc n → Prop
  | .scan e _ (some copy) | .fill e _ copy | .install e _ copy =>
    e = d ∧ copy.isEmpty = false ∧ copy.term = t
  | _ => False

structure Absent (net : MemTransport ρ n) (d : ℤ) (t : UInt64) : Prop where
  members : ∀ m, ¬ HoldsData (net.members m) d t
  rounds : ∀ i c pc, net.rounds i = .running c pc → ¬ Carries d t pc

section Rounds

variable {members : Fin n → MemReplica} {c : RoundCall n} {pc : RoundPc n}

lemma forall_update_of (h : ∀ m, ¬ HoldsData (members m) d t) (hr : HoldsData r d t → False) (q : Fin n) :
    ¬ HoldsData (Function.update members m r q) d t := by
  rw [Function.update_apply]
  split_ifs
  · exact hr
  · exact h q

lemma roundStep_members_absent (h : ∀ m, ¬ HoldsData (members m) d t) (hc : ¬ Carries d t pc) (q : Fin n) :
    ¬ HoldsData ((roundStep members c pc).1 q) d t := by
  cases pc with
  | scan e rest copy => cases rest <;> cases copy <;> exact h q
  | floor rest | fill e rest => cases rest <;> exact h q
  | reply => exact h q
  | mark e rest v =>
    cases rest with
    | nil => exact h q
    | cons m rest =>
      refine forall_update_of h (fun hd => ?_) q
      rcases hd.of_append with hd | ⟨-, hem, -⟩
      · exact h m hd
      · cases hem
  | install e rest copy =>
    cases rest with
    | nil => exact h q
    | cons m rest =>
      refine forall_update_of h (fun hd => ?_) q
      rw [MemReplica.coldInstallSlot] at hd
      split_ifs at hd
      · exact h m hd
      · rcases hd.of_append with hd | hd
        · exact h m hd
        · exact hc hd
  | sync rest =>
    cases rest with
    | nil => exact h q
    | cons m rest => exact forall_update_of h (fun hd => h m hd.of_applyUpTo) q

lemma roundStep_pc_absent {pc' : RoundPc n} (h : ∀ m, ¬ HoldsData (members m) d t)
    (hc : ¬ Carries d t pc) (hn : (roundStep members c pc).2 = .inl pc') : ¬ Carries d t pc' := by
  have hslot : ∀ e, ¬ Carries d t (nextSlot c e) := by
    intro e
    rw [nextSlot]
    split_ifs <;> exact id
  cases pc with
  | floor rest f =>
    cases rest <;> cases hn
    · exact hslot _
    · exact id
  | scan e rest copy =>
    cases rest with
    | nil =>
      cases copy <;> cases hn
      · exact id
      · exact hc
    | cons m rest =>
      obtain rfl := Sum.inl.inj hn
      cases hp : (members m).peekSlot e with
      | none => cases copy <;> exact hc
      | some s =>
        simp only
        split_ifs
        · exact id
        · cases copy with
          | none =>
            rintro ⟨rfl, hdata⟩
            exact h m ⟨s, hp, hdata⟩
          | some copy => exact hc
  | mark e rest v =>
    cases rest <;> cases hn
    · exact hslot _
    · exact id
  | fill e rest copy =>
    cases rest with
    | nil =>
      cases hn
      exact hslot _
    | cons m rest =>
      obtain rfl := Sum.inl.inj hn
      split_ifs <;> exact hc
  | install e rest copy => cases rest <;> cases hn <;> exact hc
  | sync rest => cases rest <;> cases hn <;> exact id
  | reply => cases hn

end Rounds

section Members

variable {net net' : MemTransport ρ n}

lemma Absent.setMember (h : Absent net d t) (hr : HoldsData r d t → HoldsData (net.members m) d t) :
    Absent (net.setMember m r) d t :=
  ⟨forall_update_of h.members fun hd => h.members m (hr hd), h.rounds⟩

lemma Absent.rounds_update [DecidableEq ρ] {i : ρ} {rd : Round n} (h : Absent net d t)
    (hrd : ∀ c pc, rd = .running c pc → ¬ Carries d t pc) :
    Absent { net with rounds := Function.update net.rounds i rd } d t := by
  refine ⟨h.members, fun j c pc hj => ?_⟩
  simp only [Function.update_apply] at hj
  split_ifs at hj
  · exact hrd c pc hj
  · exact h.rounds j c pc hj

lemma Absent.goRound [DecidableEq ρ] {i : ρ} (h : Absent net d t) (hg : net.goRound i = some net') :
    Absent net' d t := by
  cases hi : net.rounds i with
  | idle | done => simp [MemTransport.goRound, hi] at hg
  | running c pc =>
    have hc := h.rounds i c pc hi
    simp only [MemTransport.goRound, hi, Option.some.injEq] at hg
    subst hg
    have hm : Absent { net with members := (roundStep net.members c pc).1 } d t :=
      ⟨roundStep_members_absent h.members hc, h.rounds⟩
    refine hm.rounds_update fun c' pc' hrd => ?_
    split at hrd
    · rename_i hn
      cases hrd
      exact roundStep_pc_absent h.members hc hn
    · cases hrd

lemma Absent.doWrite {hdr : ClientHdr} {addr len : UInt64} {bytes : Option (List UInt8)} {l : LsnPair}
    (h : Absent net d t) (hw : (net.members m).doWrite hdr e addr len bytes = .ok (l, r))
    (hne : e ≠ d ∨ hdr.term ≠ t) : Absent (net.setMember m r) d t := by
  obtain ⟨-, -, -, rfl, -⟩ := MemReplica.doWrite_ok hw
  apply h.setMember
  intro hd
  rcases hd.of_applyUpTo.of_append with hd | ⟨he, -, ht⟩
  · exact hd
  · rcases hne with hne | hne
    · exact absurd he hne
    · exact absurd ht hne

lemma Absent.doResolveLocal {hdr : ClientHdr} {upto : ℤ} {res : ResolutionResult} (h : Absent net d t)
    (hw : (net.members m).doResolveLocal hdr upto = .ok (res, r)) : Absent (net.setMember m r) d t := by
  obtain ⟨-, -, hj⟩ := doResolveLocal_ok hw
  apply h.setMember
  rintro ⟨s, hs, hem, ht⟩
  rw [hj] at hs
  split_ifs at hs
  · cases hs
    cases hem
  · exact ⟨s, hs, hem, ht⟩

lemma Absent.ackStep [DecidableEq ρ] {req : WriteReq} {a : AckAct ρ n} {s s' : AckSys ρ n}
    (h : Absent s.net req.dlsn req.hdr.term) (ha : spares req a = true) (hs : ackStep s a = some s') :
    Absent s'.net req.dlsn req.hdr.term := by
  cases a with
  | deliver m hdr e addr len bytes =>
    simp only [Cluster.ackStep] at hs
    split_ifs at hs
    split at hs <;> cases hs
    · rename_i hw
      exact h.doWrite hw (by simpa [spares] using ha)
    · exact h
  | read m hdr H addr len destSize =>
    simp only [Cluster.ackStep] at hs
    split at hs <;> cases hs
    · rename_i hw
      obtain ⟨-, -, rfl, -⟩ := MemReplica.doRead_ok hw
      exact h.setMember HoldsData.of_applyUpTo
    · exact h
  | keepAlive m hdr =>
    simp only [Cluster.ackStep] at hs
    split at hs <;> cases hs
    · rename_i hw
      obtain ⟨-, rfl, -⟩ := MemReplica.doKeepAlive_ok hw
      exact h.setMember HoldsData.of_applyUpTo
    · exact h
  | setUp m up | setLeader m =>
    cases hs
    exact ⟨h.members, h.rounds⟩
  | resolve i caller term upto =>
    simp only [Cluster.ackStep] at hs
    split at hs <;> cases hs
    refine h.rounds_update fun c pc hrd => ?_
    simp only [MemTransport.startRound] at hrd
    split_ifs at hrd
    cases hrd
    exact id
  | go i =>
    obtain ⟨net, hgo, rfl⟩ := Option.map_eq_some_iff.mp hs
    exact h.goRound hgo
  | forget i =>
    simp only [Cluster.ackStep] at hs
    split at hs <;> cases hs
    exact h.rounds_update nofun

end Members

def Leg.Taken (leg : Leg) : Prop := ∃ l, leg.request = .served (.ok l)

def Leg.live (leg : Leg) : Bool :=
  match leg.request with
  | .inFlight | .served (.ok _) => true
  | .unsent | .lost | .served (.error _) => false

def Leg.refused (leg : Leg) : Bool := leg.seen.any LegResult.refused

def LegAct.presumes : LegAct → Bool
  | .threw | .tcpFault .send => true
  | .tcpReply status => Wire.invalidArgument < status
  | _ => false

def BcastAct.Ok (s : Broadcast ρ n) : BcastAct ρ n → Prop
  | .leg i a => a.presumes = true → (s.legs i).live = false
  | _ => True

instance BcastAct.decidableOk (s : Broadcast ρ n) : (a : BcastAct ρ n) → Decidable (a.Ok s)
  | .leg i a => inferInstanceAs (Decidable (a.presumes = true → (s.legs i).live = false))
  | .deliver _ | .finish | .resolveLocal _ _ _ | .other _ => .isTrue trivial

section Legs

variable {backend : Backend} {leg leg' : Leg} {a : LegAct}

lemma Leg.live_of_taken (h : leg.Taken) : leg.live = true := by
  obtain ⟨l, hl⟩ := h
  rw [live, hl]

lemma legStep_spec (h : legStep backend leg a = some leg') : (leg'.Taken ↔ leg.Taken) ∧
    (leg'.seen = leg.seen ∧ (leg'.live = true → leg.live = true ∨ leg.seen = none) ∨
      leg.seen = none ∧
        (leg'.refused = true → leg'.live = true → a.presumes = true ∧ leg.live = true)) := by
  cases a with
  | send | lose | tcpFence e =>
    simp only [legStep] at h
    split at h <;> cases h
    simp_all [Leg.Taken, Leg.live]
  | memDown | memReply | memTimeout =>
    simp only [legStep] at h
    split at h <;> cases h
    all_goals simp_all [Leg.Taken, Leg.refused, Leg.live, LegResult.refused, deterministicReject]
    all_goals
      rename_i ans _ _
      cases ans with
      | ok => exact fun hr => absurd hr Bool.false_ne_true
      | error => exact fun _ hl => absurd hl Bool.false_ne_true
  | tcpHelo status =>
    simp only [legStep] at h
    split at h
    · split_ifs at h
      cases h
      simp_all [Leg.Taken, Leg.live]
    · cases h
  | tcpFault e =>
    simp only [legStep] at h
    split at h
    · cases h
      simp_all [Leg.Taken, Leg.live]
    · split_ifs at h with he
      cases h
      refine ⟨Iff.rfl, Or.inr ⟨by assumption, fun hr hl => ⟨?_, hl⟩⟩⟩
      cases e with
      | send => rfl
      | setup | connect | invalidArgument => cases he
      | recv | closed | malformed | timedOut => cases hr
    · cases h
  | tcpReply status =>
    simp only [legStep] at h
    split at h
    · rename_i ans hreq hseen
      split_ifs at h with hans
      cases h
      refine ⟨Iff.rfl, Or.inr ⟨hseen, fun hr hl => ⟨?_, hl⟩⟩⟩
      cases ans with
      | error e => simp [Leg.live, hreq] at hl
      | ok l =>
        simp only [mayAnswer, Bool.or_eq_true, decide_eq_true_eq] at hans
        rcases hans with rfl | hlt
        · cases hr
        · exact decide_eq_true hlt
    · cases h
  | threw =>
    simp only [legStep] at h
    split at h <;> cases h
    exact ⟨Iff.rfl, Or.inr ⟨by assumption, fun _ hl => ⟨rfl, hl⟩⟩⟩

lemma Leg.refused_of_seen (h : leg'.seen = leg.seen) : leg'.refused = leg.refused := by
  rw [refused, refused, h]

lemma refused_of_writeOutcome {seen : Fin n → Option LegResult} (h : writeOutcome seen = some .empty)
    (i : Fin n) : (seen i).any LegResult.refused = true := by
  simp only [writeOutcome] at h
  split_ifs at h with hq hall hcard
  · cases h
  · have huniv := (Finset.card_eq_iff_eq_univ _).mp (hcard.trans (Fintype.card_fin n).symm)
    have hi := Finset.mem_univ i
    rw [← huniv] at hi
    exact (Finset.mem_filter.mp hi).2
  · cases h

end Legs

structure BcastInv (req : WriteReq) (s : Broadcast ρ n) : Prop where
  absent : (∀ i, ¬ (s.legs i).Taken) → Absent s.cluster.net req.dlsn req.hdr.term
  refused : ∀ i, (s.legs i).refused = true → (s.legs i).live = false
  outcome : s.outcome = some .empty → ∀ i, (s.legs i).refused = true

variable {backend : Fin n → Backend} {req : WriteReq} {s s' : Broadcast ρ n}

lemma BcastInv.leg {i : Fin n} {a : LegAct} {leg : Leg} (h : BcastInv req s)
    (hok : a.presumes = true → (s.legs i).live = false) (hl : legStep (backend i) (s.legs i) a = some leg) :
    BcastInv req { s with legs := Function.update s.legs i leg } := by
  obtain ⟨htaken, hseen⟩ := legStep_spec hl
  have hkeep : ∀ j, ¬ (Function.update s.legs i leg j).Taken → ¬ (s.legs j).Taken := by
    intro j hj
    rw [Function.update_apply] at hj
    split_ifs at hj with hji
    · subst hji
      rwa [htaken] at hj
    · exact hj
  refine ⟨fun hno => h.absent fun j => hkeep j (hno j), ?_, fun hoc j => ?_⟩
  · refine (Function.forall_update_iff _ (p := fun _ (x : Leg) => x.refused = true → x.live = false)).mpr
      ⟨fun hr => Bool.eq_false_iff.mpr fun hlive => ?_, fun j _ => h.refused j⟩
    rcases hseen with ⟨hseen, hsent⟩ | ⟨-, hpre⟩
    · have hr' : (s.legs i).refused = true := Leg.refused_of_seen hseen ▸ hr
      rcases hsent hlive with hlive | hnone
      · exact absurd hlive (by simp [h.refused i hr'])
      · simp [Leg.refused, hnone] at hr'
    · obtain ⟨hp, hlive⟩ := hpre hr hlive
      exact absurd hlive (by simp [hok hp])
  · have hj := h.outcome hoc j
    simp only [Function.update_apply]
    split_ifs with hji
    · subst hji
      rcases hseen with ⟨hseen, -⟩ | ⟨hnone, -⟩
      · exact (Leg.refused_of_seen hseen).trans hj
      · simp [Leg.refused, hnone] at hj
    · exact hj

lemma BcastInv.cluster (h : BcastInv req s) {cluster : AckSys ρ n}
    (hc : Absent s.cluster.net req.dlsn req.hdr.term → Absent cluster.net req.dlsn req.hdr.term) :
    BcastInv req { s with cluster := cluster } :=
  ⟨fun hno => hc (h.absent hno), h.refused, h.outcome⟩

variable [DecidableEq ρ]

lemma BcastInv.deliver {i : Fin n} (h : BcastInv req s)
    (hs : bcastStep backend req s (.deliver i) = some s') : BcastInv req s' := by
  simp only [bcastStep] at hs
  split at hs
  case h_2 => cases hs
  case h_1 hreq =>
    split_ifs at hs
    obtain ⟨cluster, hc, rfl⟩ := Option.map_eq_some_iff.mp hs
    simp only [ackStep] at hc
    split_ifs at hc
    have hnot : ∀ j, j = i → ¬ (s.legs j).Taken := by
      rintro j rfl ⟨l, hl⟩
      rw [hreq] at hl
      cases hl
    have hnr : (s.legs i).refused ≠ true := fun hr => by simpa [Leg.live, hreq] using h.refused i hr
    cases hw : (s.cluster.net.members i).doWrite req.hdr req.dlsn req.addr req.len req.bytes with
    | error e =>
      rw [hw] at hc
      cases hc
      refine ⟨fun hno => h.absent fun j => ?_, ?_, fun hoc => absurd (h.outcome hoc i) hnr⟩
      · by_cases hji : j = i
        · exact hnot j hji
        · simpa [Function.update_of_ne hji] using hno j
      · exact (Function.forall_update_iff _ (p := fun _ (x : Leg) => x.refused = true → x.live = false)).mpr
          ⟨fun hr => absurd hr hnr, fun j _ => h.refused j⟩
    | ok p =>
      rw [hw] at hc
      cases hc
      have hleg : Leg.Taken { s.legs i with request := .served (.ok p.1) } := ⟨p.1, rfl⟩
      refine ⟨fun hno => absurd hleg ?_, ?_, fun hoc => absurd (h.outcome hoc i) hnr⟩
      · simpa [Except.map] using hno i
      · exact (Function.forall_update_iff _ (p := fun _ (x : Leg) => x.refused = true → x.live = false)).mpr
          ⟨fun hr => absurd hr hnr, fun j _ => h.refused j⟩

lemma BcastInv.step {a : BcastAct ρ n} (h : BcastInv req s) (hok : a.Ok s)
    (hs : bcastStep backend req s a = some s') : BcastInv req s' := by
  cases a with
  | leg i a =>
    obtain ⟨leg, hl, rfl⟩ := Option.map_eq_some_iff.mp hs
    exact h.leg hok hl
  | deliver i => exact h.deliver hs
  | finish =>
    simp only [bcastStep] at hs
    split at hs <;> cases hs
    rename_i hoc
    refine ⟨h.absent, h.refused, fun he i => ?_⟩
    cases he
    exact refused_of_writeOutcome hoc i
  | resolveLocal m hdr upto =>
    simp only [bcastStep] at hs
    split at hs <;> cases hs
    · rename_i hw
      exact h.cluster fun ha => ha.doResolveLocal hw
    · exact h
  | other a =>
    simp only [bcastStep] at hs
    split_ifs at hs with ha
    obtain ⟨cluster, hc, rfl⟩ := Option.map_eq_some_iff.mp hs
    exact h.cluster fun hab => hab.ackStep ha hc

/-- A slot that its write has resolved Empty is on no member, and stays off all of them, unless a leg has presumed a
refusal while its request was in flight or journaled. -/
theorem empty_outcome_absent {cluster : AckSys ρ n} (h₀ : Absent cluster.net req.dlsn req.hdr.term)
    (h : Reach (bcastStep backend req) BcastAct.Ok (.start cluster) s)
    (hoc : s.outcome = some .empty) (m : Fin n) :
    ¬ HoldsData (s.cluster.net.members m) req.dlsn req.hdr.term := by
  have hi : BcastInv req s := h.invariant (P := BcastInv req) ⟨fun _ => h₀, nofun, nofun⟩
    fun _ _ _ hi hok hs => hi.step hok hs
  refine (hi.absent fun i htaken => ?_).members m
  have hlive := hi.refused i (hi.outcome hoc i)
  simp [Leg.live_of_taken htaken] at hlive

section Runs

def writeSlotZero : WriteReq := ⟨⟨1, -1, -1, 7⟩, 0, 0, 4096, none⟩

def newCluster (n : ℕ) [NeZero n] : AckSys Unit n := .start (-1) (.firstLogin 4096 7)

lemma absent_newCluster [NeZero n] :
    Absent (newCluster n).net writeSlotZero.dlsn writeSlotZero.hdr.term := by
  refine ⟨fun m h => ?_, fun i c pc h => ?_⟩
  · obtain ⟨s, hs, -⟩ := h
    cases hs
  · cases h

theorem empty_outcome_absent_threeRefusals : ∃ s : Broadcast Unit 3,
    Reach (bcastStep ![.mem, .tcp, .tcp] writeSlotZero) BcastAct.Ok (.start (newCluster 3)) s ∧
      s.outcome = some .empty ∧ ∀ m, ¬ HoldsData (s.cluster.net.members m) 0 1 := by
  obtain ⟨s, hr, hp⟩ := Reach.exists_of_exec (bcastStep ![.mem, .tcp, .tcp] writeSlotZero) BcastAct.Ok
    (.start (newCluster 3))
    [.leg 0 .memDown, .leg 1 .threw, .leg 2 .send, .resolveLocal 2 ⟨1, -1, -1, 7⟩ 0, .deliver 2,
      .leg 2 (.tcpReply Wire.invalidArgument), .finish]
    (fun s => s.outcome = some .empty) (by decide +kernel)
  have hoc := of_decide_eq_true hp
  exact ⟨s, hr, hoc, empty_outcome_absent absent_newCluster hr hoc⟩

def emptyYetHeld (s : Broadcast Unit 1) : Bool :=
  decide (s.outcome = some .empty) &&
    ((s.cluster.net.members 0).journal.find 0).any fun sl => !sl.isEmpty && sl.term = 1

lemma holdsData_of_emptyYetHeld {s : Broadcast Unit 1} (h : emptyYetHeld s = true) :
    s.outcome = some .empty ∧ HoldsData (s.cluster.net.members 0) 0 1 := by
  obtain ⟨hoc, hd⟩ := Bool.and_eq_true_iff.mp h
  obtain ⟨sl, hsl, hdata⟩ := (Option.any_eq_true _ _).mp hd
  exact ⟨of_decide_eq_true hoc, sl, hsl, by simpa using hdata⟩

theorem thrown_leg_over_journaled_write : ∃ s : Broadcast Unit 1,
    Reach (bcastStep ![.tcp] writeSlotZero) free (.start (newCluster 1)) s ∧
      s.outcome = some .empty ∧ HoldsData (s.cluster.net.members 0) 0 1 := by
  obtain ⟨s, hr, hp⟩ := Reach.exists_of_exec (bcastStep ![.tcp] writeSlotZero) free
    (.start (newCluster 1)) [.leg 0 .send, .deliver 0, .leg 0 .threw, .finish] emptyYetHeld
    (by decide +kernel)
  exact ⟨s, hr, holdsData_of_emptyYetHeld hp⟩

theorem internal_status_over_journaled_write : ∃ s : Broadcast Unit 1,
    Reach (bcastStep ![.tcp] writeSlotZero) free (.start (newCluster 1)) s ∧
      s.outcome = some .empty ∧ HoldsData (s.cluster.net.members 0) 0 1 := by
  obtain ⟨s, hr, hp⟩ := Reach.exists_of_exec (bcastStep ![.tcp] writeSlotZero) free
    (.start (newCluster 1)) [.leg 0 .send, .deliver 0, .leg 0 (.tcpReply Wire.internal), .finish]
    emptyYetHeld (by decide +kernel)
  exact ⟨s, hr, holdsData_of_emptyYetHeld hp⟩

theorem failed_send_delivered_late : ∃ s : Broadcast Unit 1,
    Reach (bcastStep ![.tcp] writeSlotZero) free (.start (newCluster 1)) s ∧
      s.outcome = some .empty ∧ HoldsData (s.cluster.net.members 0) 0 1 := by
  obtain ⟨s, hr, hp⟩ := Reach.exists_of_exec (bcastStep ![.tcp] writeSlotZero) free
    (.start (newCluster 1)) [.leg 0 .send, .leg 0 (.tcpFault .send), .finish, .deliver 0]
    emptyYetHeld (by decide +kernel)
  exact ⟨s, hr, holdsData_of_emptyYetHeld hp⟩

end Runs

end CraftClient.Client
